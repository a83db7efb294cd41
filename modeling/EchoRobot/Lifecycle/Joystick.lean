import EchoRobot.Lifecycle.Module
import EchoRobot.Resources.Ledger

/-! Setting the joystick up outside simulation: the loop over the pins, its four ways to
fail, and what each of them gives back. -/

namespace EchoRobot.Joystick

open Resources

/-- What the driver can hold: its context, a GPIO, and the interrupt of a pin, registered
with the pointer to that pin's data. -/
inductive Held where
  | ctx
  | gpio (number : Int)
  | irq (number : Int) (pin : Nat)
  deriving DecidableEq

abbrev Log := List (LedgerEntry Held)

/-- The arrays of `struct echo_joystick_ctx`; `pinIdx` is `pin_data[i].pin_idx`. -/
structure JoystickCtx where
  gpioPins : Nat → Int
  irqs : Nat → Int
  pinIdx : Nat → Nat
  simMode : Bool

/-- What the kernel answers in each iteration. -/
structure JoystickEnv where
  gpioRequest : Nat → Int
  gpioDirectionInput : Nat → Int
  gpioToIrq : Nat → Int
  requestThreadedIrq : Nat → Int

/-- One iteration of the loop, with what it acquires and releases and its error. -/
def requestPin (env : JoystickEnv) (ctx : JoystickCtx) (i : Nat) : JoystickCtx × Log × Int :=
  let gpio := Held.gpio (ctx.gpioPins i)
  let ret := env.gpioRequest i
  if ret ≠ 0 then (ctx, [], ret) else
  let ret := env.gpioDirectionInput i
  if ret ≠ 0 then (ctx, [.acquire gpio, .release gpio], ret) else
  let ctx := { ctx with irqs := Function.update ctx.irqs i (env.gpioToIrq i) }
  if ctx.irqs i < 0 then (ctx, [.acquire gpio, .release gpio], ctx.irqs i) else
  let ctx := { ctx with pinIdx := Function.update ctx.pinIdx i i }
  let ret := env.requestThreadedIrq i
  if ret ≠ 0 then (ctx, [.acquire gpio, .release gpio], ret) else
  (ctx, [.acquire gpio, .acquire (.irq (ctx.irqs i) i)], 0)

/-- The loops that free the pins before `i`, the last one first. -/
def freePins (ctx : JoystickCtx) : Nat → Log
  | 0 => []
  | i + 1 => .release (.irq (ctx.irqs i) i) :: .release (.gpio (ctx.gpioPins i)) :: freePins ctx i

def errGpio (ctx : JoystickCtx) (i : Nat) : Log := freePins ctx i ++ [.release .ctx]

/-- The loop from pin `i` on, with `left` pins to go. -/
def requestPins (env : JoystickEnv) : Nat → Nat → JoystickCtx → Log × Except Int JoystickCtx
  | 0, _, ctx => ([], .ok ctx)
  | left + 1, i, ctx =>
    let pin := requestPin env ctx i
    if pin.2.2 ≠ 0 then (pin.2.1 ++ errGpio pin.1 i, .error pin.2.2) else
    let later := requestPins env left (i + 1) pin.1
    (pin.2.1 ++ later.1, later.2)

/-- `count` is `ECHO_NUM_GPIO`. -/
def echoJoystickCreate (count : Nat) (gpioPins : Nat → Int) (simMode allocated : Bool)
    (env : JoystickEnv) : Log × Except Int JoystickCtx :=
  if allocated then
    let ctx : JoystickCtx := ⟨gpioPins, fun _ => 0, fun _ => 0, simMode⟩
    if simMode then ([.acquire .ctx], .ok ctx) else
    let pins := requestPins env count 0 ctx
    (.acquire .ctx :: pins.1, pins.2)
  else ([], .error (-ENOMEM))

def echoJoystickDestroy (count : Nat) (ctx : JoystickCtx) : Log :=
  (if ctx.simMode then [] else freePins ctx count) ++ [.release .ctx]

/-- The error of the first call that fails for a pin, zero if none does. -/
def JoystickEnv.pinError (env : JoystickEnv) (i : Nat) : Int :=
  if env.gpioRequest i ≠ 0 then env.gpioRequest i
  else if env.gpioDirectionInput i ≠ 0 then env.gpioDirectionInput i
  else if env.gpioToIrq i < 0 then env.gpioToIrq i
  else env.requestThreadedIrq i

/-- The error of the first pin that fails. -/
def JoystickEnv.FirstError (env : JoystickEnv) (count : Nat) (ret : Int) : Prop :=
  ∃ i < count, env.pinError i = ret ∧ ret ≠ 0 ∧ ∀ earlier < i, env.pinError earlier = 0

/-- What belongs to one pin. -/
def OfPin (gpioPins : Nat → Int) (env : JoystickEnv) (i : Nat) (held : Held) : Prop :=
  held = .gpio (gpioPins i) ∨ held = .irq (env.gpioToIrq i) i

/-- The context and every pin's GPIO and interrupt are held, and nothing else. -/
structure HoldsAll (count : Nat) (gpioPins : Nat → Int) (env : JoystickEnv) (held : List Held) :
    Prop where
  once : held.Nodup
  exact : ∀ resource, resource ∈ held ↔
    resource = .ctx ∨ ∃ i < count, OfPin gpioPins env i resource

/-- A creation holds everything or nothing, and has acquired nothing twice. -/
structure UnwindsExactly (count : Nat) (gpioPins : Nat → Int) (allocated : Bool)
    (env : JoystickEnv) (created : Log × Except Int JoystickCtx) : Prop where
  succeeds : ∀ ctx, created.2 = .ok ctx → allocated = true ∧ (∀ i < count, env.pinError i = 0) ∧
    (∀ i < count, ctx.pinIdx i = i) ∧
    ∃ held, book [] created.1 = some held ∧ HoldsAll count gpioPins env held ∧
      book held (echoJoystickDestroy count ctx) = some [] ∧
      ∀ resource, (echoJoystickDestroy count ctx).count (.release resource) = held.count resource
  fails : ∀ ret, created.2 = .error ret →
    (ret = -ENOMEM ∧ allocated = false ∨ env.FirstError count ret) ∧
    book [] created.1 = some [] ∧
    ∀ resource, created.1.count (.release resource) = created.1.count (.acquire resource)
  once : ∀ resource, created.1.count (.acquire resource) ≤ 1

/-- What is held when the pins before `i` are set up. -/
def heldUpTo (gpioPins : Nat → Int) (env : JoystickEnv) : Nat → List Held
  | 0 => [.ctx]
  | i + 1 => .irq (env.gpioToIrq i) i :: .gpio (gpioPins i) :: heldUpTo gpioPins env i

/-- The arrays hold what belongs to the pins before `i`. -/
structure SetUp (gpioPins : Nat → Int) (env : JoystickEnv) (ctx : JoystickCtx) (i : Nat) :
    Prop where
  pins : ctx.gpioPins = gpioPins
  hardware : ctx.simMode = false
  irqs : ∀ earlier < i, ctx.irqs earlier = env.gpioToIrq earlier
  pinIdx : ∀ earlier < i, ctx.pinIdx earlier = earlier

section Pins
variable {gpioPins : Nat → Int} {env : JoystickEnv} {ctx : JoystickCtx} {count i : Nat}

theorem mem_heldUpTo {resource : Held} : resource ∈ heldUpTo gpioPins env i ↔
    resource = .ctx ∨ ∃ pin < i, OfPin gpioPins env pin resource := by
  induction i with
  | zero => simp [heldUpTo]
  | succ i ih =>
    simp only [heldUpTo, List.mem_cons, ih, Nat.lt_succ_iff_lt_or_eq]
    constructor
    · rintro (irq | gpio | ctx | ⟨pin, inside, own⟩)
      · exact Or.inr ⟨i, Or.inr rfl, Or.inr irq⟩
      · exact Or.inr ⟨i, Or.inr rfl, Or.inl gpio⟩
      · exact Or.inl ctx
      · exact Or.inr ⟨pin, Or.inl inside, own⟩
    · rintro (ctx | ⟨pin, inside | rfl, own⟩)
      · exact Or.inr (Or.inr (Or.inl ctx))
      · exact Or.inr (Or.inr (Or.inr ⟨pin, inside, own⟩))
      · rcases own with gpio | irq
        · exact Or.inr (Or.inl gpio)
        · exact Or.inl irq

theorem gpio_not_held (distinct : ∀ pin < i, gpioPins pin ≠ gpioPins i) :
    Held.gpio (gpioPins i) ∉ heldUpTo gpioPins env i := by
  rw [mem_heldUpTo]
  rintro (ctx | ⟨pin, inside, gpio | irq⟩)
  · cases ctx
  · exact distinct pin inside (Held.gpio.inj gpio).symm
  · cases irq

theorem irq_not_held {number : Int} : Held.irq number i ∉ heldUpTo gpioPins env i := by
  rw [mem_heldUpTo]
  rintro (ctx | ⟨pin, inside, gpio | irq⟩)
  · cases ctx
  · cases gpio
  · exact absurd (Held.irq.inj irq).2 (by omega)

/-- Two pins have nothing in common. -/
theorem not_ofPin {pin : Nat} {resource : Held} (apart : gpioPins i ≠ gpioPins pin)
    (differ : i ≠ pin) (mine : OfPin gpioPins env i resource) :
    ¬ OfPin gpioPins env pin resource := by
  rcases mine with rfl | rfl <;> rintro (gpio | irq)
  · exact apart (Held.gpio.inj gpio)
  · cases irq
  · cases gpio
  · exact differ (Held.irq.inj irq).2

/-- The loops that free pins give back what was set up, the last pin first. -/
theorem book_freePins (setUp : SetUp gpioPins env ctx i) (rest : Log) :
    book (heldUpTo gpioPins env i) (freePins ctx i ++ rest) = book [.ctx] rest := by
  induction i with
  | zero => rfl
  | succ i ih =>
    have earlier : SetUp gpioPins env ctx i := ⟨setUp.pins, setUp.hardware,
      fun pin inside => setUp.irqs pin (by omega), fun pin inside => setUp.pinIdx pin (by omega)⟩
    rw [freePins, setUp.irqs i (by omega), setUp.pins, heldUpTo, List.cons_append, List.cons_append,
      book_release, book_release, ih earlier]

theorem book_errGpio (setUp : SetUp gpioPins env ctx i) :
    book (heldUpTo gpioPins env i) (errGpio ctx i) = some [] := by
  rw [errGpio, book_freePins setUp, book_release, book_nil]

/-- Giving back acquires nothing. -/
theorem acquired_errGpio : acquired (errGpio ctx i) = [] := by
  have none : acquired (freePins ctx i) = [] := by
    induction i with
    | zero => rfl
    | succ i ih => exact ih
  rw [errGpio, acquired_append, none]
  rfl

/-- An iteration that nothing fails in. -/
theorem requestPin_ok (works : env.pinError i = 0) :
    requestPin env ctx i =
      ({ ctx with
        irqs := Function.update ctx.irqs i (env.gpioToIrq i)
        pinIdx := Function.update ctx.pinIdx i i },
      [.acquire (.gpio (ctx.gpioPins i)), .acquire (.irq (env.gpioToIrq i) i)], 0) := by
  unfold JoystickEnv.pinError at works
  split at works
  · contradiction
  split at works
  · contradiction
  split at works
  · omega
  rename_i request direction irq
  simp [requestPin, request, direction, irq, works]

/-- One that fails gives its GPIO back, if it had come so far. -/
theorem requestPin_failed (ctx : JoystickCtx) (fails : env.pinError i ≠ 0) :
    let pin := requestPin env ctx i
    pin.2.2 = env.pinError i ∧
      (pin.2.1 = [] ∨ pin.2.1 =
        [.acquire (.gpio (ctx.gpioPins i)), .release (.gpio (ctx.gpioPins i))]) ∧
      pin.1.gpioPins = ctx.gpioPins ∧ pin.1.simMode = ctx.simMode ∧
      ∀ earlier < i, pin.1.irqs earlier = ctx.irqs earlier ∧
        pin.1.pinIdx earlier = ctx.pinIdx earlier := by
  have other : ∀ {Value : Type} (array : Nat → Value) (value : Value), ∀ earlier < i,
      Function.update array i value earlier = array earlier := fun array value earlier inside =>
    Function.update_of_ne (Nat.ne_of_lt inside) value array
  unfold JoystickEnv.pinError at fails ⊢
  unfold requestPin
  by_cases request : env.gpioRequest i ≠ 0
  · simp [request]
  by_cases direction : env.gpioDirectionInput i ≠ 0
  · simp [request, direction]
  by_cases irq : env.gpioToIrq i < 0
  · simpa [request, direction, irq] using other ctx.irqs (env.gpioToIrq i)
  · have refused : env.requestThreadedIrq i ≠ 0 := by simpa [request, direction, irq] using fails
    simpa [request, direction, irq, refused] using fun earlier inside =>
      And.intro (other ctx.irqs (env.gpioToIrq i) earlier inside)
        (other ctx.pinIdx i earlier inside)

theorem setUp_failed (setUp : SetUp gpioPins env ctx i) (fails : env.pinError i ≠ 0) :
    SetUp gpioPins env (requestPin env ctx i).1 i := by
  obtain ⟨-, -, pins, mode, arrays⟩ := requestPin_failed ctx fails
  exact ⟨pins.trans setUp.pins, mode.trans setUp.hardware,
    fun pin inside => (arrays pin inside).1.trans (setUp.irqs pin inside),
    fun pin inside => (arrays pin inside).2.trans (setUp.pinIdx pin inside)⟩

theorem setUp_ok (setUp : SetUp gpioPins env ctx i) (works : env.pinError i = 0) :
    SetUp gpioPins env (requestPin env ctx i).1 (i + 1) := by
  rw [requestPin_ok works]
  refine ⟨setUp.pins, setUp.hardware, fun pin inside => ?_, fun pin inside => ?_⟩
  · by_cases last : pin = i
    · subst last
      simp
    · simpa [last] using setUp.irqs pin (by omega)
  · by_cases last : pin = i
    · subst last
      simp
    · simpa [last] using setUp.pinIdx pin (by omega)

/-- What the loop has done when it is over, from pin `i` on. -/
structure LoopDone (gpioPins : Nat → Int) (env : JoystickEnv) (i count : Nat)
    (done : Log × Except Int JoystickCtx) : Prop where
  succeeds : ∀ ctx, done.2 = .ok ctx → (∀ pin < count, env.pinError pin = 0) ∧
    SetUp gpioPins env ctx count ∧
    book (heldUpTo gpioPins env i) done.1 = some (heldUpTo gpioPins env count)
  fails : ∀ ret, done.2 = .error ret →
    env.FirstError count ret ∧ book (heldUpTo gpioPins env i) done.1 = some []
  within : ∀ resource ∈ acquired done.1, ∃ pin, i ≤ pin ∧ pin < count ∧
    OfPin gpioPins env pin resource
  once : (acquired done.1).Nodup

/-- The pin at which the loop breaks off gives back what it took, the loop below it the
rest. -/
theorem loop_failed (distinct : ∀ pin < i, gpioPins pin ≠ gpioPins i) (inside : i < count)
    (setUp : SetUp gpioPins env ctx i) (before : ∀ pin < i, env.pinError pin = 0)
    (fails : env.pinError i ≠ 0) :
    let pin := requestPin env ctx i
    LoopDone gpioPins env i count (pin.2.1 ++ errGpio pin.1 i, .error pin.2.2) := by
  obtain ⟨error, log, -⟩ := requestPin_failed ctx fails
  have unwound := book_errGpio (setUp_failed setUp fails)
  rw [setUp.pins] at log
  have taken : acquired ((requestPin env ctx i).2.1 ++ errGpio (requestPin env ctx i).1 i) = [] ∨
      acquired ((requestPin env ctx i).2.1 ++ errGpio (requestPin env ctx i).1 i) =
        [.gpio (gpioPins i)] := by
    rw [acquired_append, acquired_errGpio]
    rcases log with none | both
    · exact Or.inl (by rw [none]; rfl)
    · exact Or.inr (by rw [both]; rfl)
  refine ⟨fun ctx other => (by cases other), fun ret same => ⟨?_, ?_⟩, ?_, ?_⟩
  · cases same
    exact ⟨i, inside, error.symm, error ▸ fails, before⟩
  · rcases log with none | taken
    · simpa [none] using unwound
    · rw [taken, List.cons_append, book_acquire (gpio_not_held distinct), List.cons_append,
        book_release]
      exact unwound
  · intro resource member
    rcases taken with none | one
    · simp [none] at member
    · rw [one, List.mem_singleton] at member
      exact ⟨i, Nat.le_refl i, inside, Or.inl member⟩
  · rcases taken with none | one
    · simp [none]
    · simp [one]

/-- A pin that is set up, before a loop that does the others. -/
theorem loop_cons {done : Log × Except Int JoystickCtx}
    (distinct : ∀ pin < i, gpioPins pin ≠ gpioPins i)
    (apart : ∀ pin < count, i < pin → gpioPins i ≠ gpioPins pin) (inside : i < count)
    (setUp : SetUp gpioPins env ctx i) (works : env.pinError i = 0)
    (later : LoopDone gpioPins env (i + 1) count done) :
    LoopDone gpioPins env i count ((requestPin env ctx i).2.1 ++ done.1, done.2) := by
  have log : (requestPin env ctx i).2.1 =
      [.acquire (.gpio (gpioPins i)), .acquire (.irq (env.gpioToIrq i) i)] := by
    rw [requestPin_ok works, setUp.pins]
  have booked : ∀ rest, book (heldUpTo gpioPins env i)
      ([.acquire (.gpio (gpioPins i)), .acquire (.irq (env.gpioToIrq i) i)] ++ rest) =
      book (heldUpTo gpioPins env (i + 1)) rest := by
    intro rest
    have free : Held.irq (env.gpioToIrq i) i ∉ .gpio (gpioPins i) :: heldUpTo gpioPins env i := by
      simpa using irq_not_held
    rw [List.cons_append, book_acquire (gpio_not_held distinct), List.cons_append,
      book_acquire free]
    rfl
  have own : acquired (requestPin env ctx i).2.1 =
      [.gpio (gpioPins i), .irq (env.gpioToIrq i) i] := by
    rw [log]
    rfl
  refine ⟨fun ctx ok => ?_, fun ret error => ?_, fun resource member => ?_, ?_⟩
  · obtain ⟨all, arrays, held⟩ := later.succeeds ctx ok
    exact ⟨all, arrays, by rw [log, booked, held]⟩
  · obtain ⟨first, nothing⟩ := later.fails ret error
    exact ⟨first, by rw [log, booked, nothing]⟩
  · rw [acquired_append, own] at member
    rcases List.mem_append.mp member with here | there
    · refine ⟨i, Nat.le_refl i, inside, ?_⟩
      simpa [OfPin] using here
    · obtain ⟨pin, above, below, ofPin⟩ := later.within resource there
      exact ⟨pin, by omega, below, ofPin⟩
  · rw [acquired_append, own]
    refine List.nodup_append.mpr ⟨by simp, later.once, ?_⟩
    rintro resource here other there rfl
    obtain ⟨pin, above, below, ofPin⟩ := later.within resource there
    have mine : OfPin gpioPins env i resource := by simpa [OfPin] using here
    exact not_ofPin (apart pin below (by omega)) (by omega) mine ofPin

/-- Whatever the outcomes, the loop sets all pins up or none. -/
theorem loop_done (distinct : ∀ pin < count, ∀ other < count, gpioPins pin = gpioPins other →
    pin = other) (left : Nat) (all : i + left = count) (setUp : SetUp gpioPins env ctx i)
    (before : ∀ pin < i, env.pinError pin = 0) :
    LoopDone gpioPins env i count (requestPins env left i ctx) := by
  have differ : ∀ pin < count, ∀ other < count, pin ≠ other → gpioPins pin ≠ gpioPins other :=
    fun pin below other above ne same => ne (distinct pin below other above same)
  induction left generalizing i ctx with
  | zero =>
    obtain rfl : i = count := all
    refine ⟨?_, fun ret error => (by cases error), by simp [requestPins, acquired],
      by simp [requestPins, acquired]⟩
    rintro other ⟨⟩
    exact ⟨before, setUp, rfl⟩
  | succ left ih =>
    have inside : i < count := by omega
    have earlier : ∀ pin < i, gpioPins pin ≠ gpioPins i := fun pin below =>
      differ pin (by omega) i inside (by omega)
    by_cases works : env.pinError i = 0
    · have none : (requestPin env ctx i).2.2 = 0 := by rw [requestPin_ok works]
      rw [requestPins]
      simp only [none, ne_eq, not_true_eq_false, ↓reduceIte]
      refine loop_cons earlier (fun pin below above => differ i inside pin below (by omega)) inside
        setUp works (ih (by omega) (setUp_ok setUp works) fun pin below => ?_)
      rcases Nat.lt_succ_iff_lt_or_eq.mp below with sooner | rfl
      · exact before pin sooner
      · exact works
    · have error := (requestPin_failed ctx works).1
      have failed := loop_failed earlier inside setUp before works
      rw [requestPins]
      rw [← error] at works
      simpa only [ne_eq, works, not_false_eq_true, ↓reduceIte] using failed

/-- The context comes before the loop and goes after it. -/
theorem unwinds_of_loopDone {loop : Log × Except Int JoystickCtx}
    (done : LoopDone gpioPins env 0 count loop) :
    UnwindsExactly count gpioPins true env (.acquire .ctx :: loop.1, loop.2) := by
  refine ⟨fun ctx ok => ?_, fun ret error => ?_, fun resource => ?_⟩
  · obtain ⟨works, setUp, booked⟩ := done.succeeds ctx ok
    have held : book [] (.acquire .ctx :: loop.1) = some (heldUpTo gpioPins env count) := by
      rw [book_acquire (by simp)]
      exact booked
    have destroy : echoJoystickDestroy count ctx = errGpio ctx count := by
      rw [echoJoystickDestroy, if_neg (by simp [setUp.hardware]), errGpio]
    rw [destroy]
    have destroyed := book_errGpio setUp
    refine ⟨rfl, works, setUp.pinIdx, _, held, ⟨book_nodup List.nodup_nil held,
      fun resource => mem_heldUpTo⟩, destroyed, fun resource => ?_⟩
    have counted := book_count resource destroyed
    rw [← count_acquired, acquired_errGpio] at counted
    simpa using counted
  · obtain ⟨first, booked⟩ := done.fails ret error
    have nothing : book [] (.acquire .ctx :: loop.1) = some [] := by
      rw [book_acquire (by simp)]
      exact booked
    exact ⟨Or.inr first, nothing, fun resource => balanced nothing⟩
  · rw [← count_acquired]
    refine List.nodup_iff_count_le_one.mp ?_ resource
    refine List.nodup_cons.mpr ⟨fun member => ?_, done.once⟩
    obtain ⟨pin, -, -, gpio | irq⟩ := done.within _ member
    · cases gpio
    · cases irq

end Pins

/-- A creation outside simulation unwinds exactly. -/
theorem joystick_unwinds_exactly (count : Nat) (gpioPins : Nat → Int) (allocated : Bool)
    (env : JoystickEnv)
    (distinct : ∀ pin < count, ∀ other < count, gpioPins pin = gpioPins other → pin = other) :
    UnwindsExactly count gpioPins allocated env
      (echoJoystickCreate count gpioPins false allocated env) := by
  cases allocated with
  | false =>
    refine ⟨fun ctx other => (by cases other), fun ret same => ?_, fun resource => Nat.zero_le 1⟩
    cases same
    exact ⟨Or.inl ⟨rfl, rfl⟩, rfl, fun resource => rfl⟩
  | true =>
    have done : LoopDone gpioPins env 0 count
        (requestPins env count 0 ⟨gpioPins, fun _ => 0, fun _ => 0, false⟩) :=
      loop_done distinct count (Nat.zero_add count)
        ⟨rfl, rfl, fun pin below => absurd below (Nat.not_lt_zero pin),
          fun pin below => absurd below (Nat.not_lt_zero pin)⟩
        fun pin below => absurd below (Nat.not_lt_zero pin)
    have created : echoJoystickCreate count gpioPins false true env =
        (.acquire .ctx :: (requestPins env count 0 ⟨gpioPins, fun _ => 0, fun _ => 0, false⟩).1,
          (requestPins env count 0 ⟨gpioPins, fun _ => 0, fun _ => 0, false⟩).2) := rfl
    rw [created]
    exact unwinds_of_loopDone done

/-- The pins of a board. -/
def fourPins : Nat → Int
  | 0 => 17
  | 1 => 27
  | 2 => 22
  | _ => 23

/-- The third pin has no interrupt. -/
def noThirdIrq : JoystickEnv :=
  ⟨fun _ => 0, fun _ => 0, fun i => if i = 2 then -6 else 100 + i, fun _ => 0⟩

theorem joystick_unwinds_exactly_noThirdIrq :
    (echoJoystickCreate 4 fourPins false true noThirdIrq).2 = .error (-6) ∧
      (echoJoystickCreate 4 fourPins false true noThirdIrq).1.length = 12 ∧
      book [] (echoJoystickCreate 4 fourPins false true noThirdIrq).1 = some [] := by
  have fails : (echoJoystickCreate 4 fourPins false true noThirdIrq).2 = .error (-6) := rfl
  have unwinds := joystick_unwinds_exactly 4 fourPins true noThirdIrq (by decide)
  exact ⟨fails, rfl, (unwinds.fails _ fails).2.1⟩

/-- The direction that a pin stands for. -/
def gpioAt : Nat → Option EchoGpio
  | 0 => some .up
  | 1 => some .down
  | 2 => some .left
  | 3 => some .right
  | _ => none

/-- What the module's own steps show of the joystick's. -/
def moduleInstr : LedgerEntry Held → Option ModuleInstr
  | .acquire .ctx => some (.create .joystick)
  | .acquire (.irq _ pin) => (gpioAt pin).map .requestIrq
  | .release (.irq _ pin) => (gpioAt pin).map .freeIrq
  | .release .ctx => some (.kfree .joystick)
  | _ => none

theorem echoJoystickDestroy_module (ctx : JoystickCtx) :
    (echoJoystickDestroy 4 ctx).filterMap moduleInstr =
      EchoRobot.echoJoystickDestroy ctx.simMode := by
  obtain ⟨pins, irqs, pinIdx, simMode⟩ := ctx
  cases simMode <;> rfl

end EchoRobot.Joystick
