import EchoRobot.Bytes.Ioc
import EchoRobot.Bytes.Layout
import EchoRobot.Bytes.Snapshot

/-! What the driver makes of the bytes of user space: the command of a `write`, and the
number and the argument of an `ioctl`. -/

namespace EchoRobot

open Bytes

/-- `struct echo_cmd`: four `__u32`. -/
def echoCmdSizes : List Nat := [4, 4, 4, 4]

def EchoCmd.fields (cmd : EchoCmd) : List Nat := [cmd.command, cmd.servoId, cmd.angle, cmd.speed]

def EchoCmd.ofFields : List Nat → Option EchoCmd
  | [command, servoId, angle, speed] => some ⟨command, servoId, angle, speed⟩
  | _ => none

def EchoCmd.members (cmd : EchoCmd) : List (Member × Nat) :=
  (Bytes.members echoCmdSizes).zip cmd.fields

/-- Every field is a `__u32`. -/
def EchoCmd.Fits (cmd : EchoCmd) : Prop := ∀ field ∈ cmd.members, field.2 < 256 ^ field.1.size

/-- The user's structure, filled in over whatever the memory held. -/
def EchoCmd.store (cmd : EchoCmd) (memory : Nat → Nat) : Nat → Nat := storeAll cmd.members memory

def EchoCmd.load (memory : Nat → Nat) : Option EchoCmd :=
  ofFields (loadAll (Bytes.members echoCmdSizes) memory)

/-- A `write` of `count` bytes; `copy_from_user` fails when the buffer is not readable. -/
def Request.ofWrite (memory : Nat → Nat) (count : Nat) (readable : Bool) : Request :=
  .write count (if readable then EchoCmd.load memory else none)

example : sizeof echoCmdSizes = sizeofEchoCmd := rfl

section Commands
variable {cmd : EchoCmd} {memory : Nat → Nat}

theorem ofFields_fields (cmd : EchoCmd) : EchoCmd.ofFields cmd.fields = some cmd := rfl

theorem load_store (fits : cmd.Fits) : EchoCmd.load (cmd.store memory) = some cmd := by
  have ordered : (Bytes.members echoCmdSizes).Pairwise Member.Before :=
    before_membersFrom (by decide)
  have loaded : loadAll (Bytes.members echoCmdSizes) (cmd.store memory) = cmd.fields :=
    @loadAll_storeAll cmd.members memory ordered fits
  rw [EchoCmd.load, loaded, ofFields_fields]

/-- Any bytes are a command, and are the bytes of it. -/
theorem store_load (bytes : ∀ key, memory key < 256) :
    ∃ cmd, EchoCmd.load memory = some cmd ∧ cmd.Fits ∧ cmd.store memory = memory := by
  refine ⟨_, rfl, ?_, storeAll_loadAll (Bytes.members echoCmdSizes) bytes⟩
  intro field among
  have listed : field ∈ (Bytes.members echoCmdSizes).map fun member =>
      (member, member.load memory) := among
  obtain ⟨member, -, rfl⟩ := List.mem_map.mp listed
  exact word_lt bytes

theorem load_cmd_congr {other : Nat → Nat}
    (same : ∀ key < sizeofEchoCmd, memory key = other key) :
    EchoCmd.load memory = EchoCmd.load other := by
  have loaded : loadAll (Bytes.members echoCmdSizes) memory =
      loadAll (Bytes.members echoCmdSizes) other := by
    apply List.map_congr_left
    intro member among
    apply Member.load_congr
    intro key inside
    exact same key (Nat.lt_of_lt_of_le inside.2 (end_le_sizeof (by decide) among))
  rw [EchoCmd.load, EchoCmd.load, loaded]

end Commands

/-- The words of the command that the driver looks at. -/
def EchoCmd.used (cmd : EchoCmd) : Nat × Option (Nat × Nat) :=
  (cmd.command,
    if cmd.command = echoCmdMove then some (cmd.servoId % 256, cmd.angle % 65536) else none)

theorem write_of_used {cmd other : EchoCmd} (count : Nat) (same : cmd.used = other.used) :
    (Request.write count (some cmd)).code = (Request.write count (some other)).code := by
  obtain ⟨command, arguments⟩ := Prod.ext_iff.mp same
  simp only [EchoCmd.used] at command arguments
  simp only [Request.code, echoWrite, ← command]
  by_cases move : cmd.command = echoCmdMove
  · rw [if_pos move, if_pos (command ▸ move)] at arguments
    obtain ⟨servo, angle⟩ := Prod.ext_iff.mp (Option.some.inj arguments)
    simp only at servo angle
    rw [servo, angle]
  · simp only [if_neg move]

/-- The first sixteen bytes of a buffer and the commands stand for each other, no other bytes
matter, and a write that is too short or not readable is refused. -/
structure CommandFormat (count : Nat) : Prop where
  decodes : ∀ (cmd : EchoCmd) memory, cmd.Fits →
    Request.ofWrite (cmd.store memory) count true = .write count (some cmd)
  encodes : ∀ memory, (∀ key, memory key < 256) → ∃ cmd,
    Request.ofWrite memory count true = .write count (some cmd) ∧ cmd.Fits ∧
      cmd.store memory = memory
  depends : ∀ memory other readable, (∀ key < sizeofEchoCmd, memory key = other key) →
    Request.ofWrite memory count readable = Request.ofWrite other count readable
  ignores : ∀ cmd other : EchoCmd, cmd.used = other.used →
    (Request.write count (some cmd)).code = (Request.write count (some other)).code
  short : count < sizeofEchoCmd → ∀ memory readable,
    (Request.ofWrite memory count readable).code = [.ret (-EINVAL)]
  unreadable : sizeofEchoCmd ≤ count → ∀ memory,
    (Request.ofWrite memory count false).code = [.ret (-EFAULT)]

theorem write_decodes (count : Nat) : CommandFormat count where
  decodes cmd memory fits := by rw [Request.ofWrite, if_pos rfl, load_store fits]
  encodes memory bytes := by
    obtain ⟨cmd, loaded, fits, stored⟩ := store_load bytes
    exact ⟨cmd, by rw [Request.ofWrite, if_pos rfl, loaded], fits, stored⟩
  depends memory other readable same := by
    rw [Request.ofWrite, Request.ofWrite, load_cmd_congr same]
  ignores cmd other := write_of_used count
  short little memory readable := by
    simp [Request.ofWrite, Request.code, echoWrite, little]
  unreadable full memory := by
    simp [Request.ofWrite, Request.code, echoWrite, Nat.not_lt.mpr full]

/-! ### `ioctl` -/

/-- The letter of the driver. -/
def echoIocMagic : Fin 256 := 69

example : 'E'.toNat = echoIocMagic := rfl

/-- `_IOW(ECHO_IOC_MAGIC, 1, __u16)` -/
def echoIocSetSpeedNumber : Ioc := ⟨Ioc.write, 2, echoIocMagic, 1⟩

/-- `_IO(ECHO_IOC_MAGIC, 2)` -/
def echoIocResetNumber : Ioc := ⟨Ioc.none, 0, echoIocMagic, 2⟩

/-- `_IOR(ECHO_IOC_MAGIC, 3, struct echo_snapshot)` -/
def echoIocGetStateNumber : Ioc := ⟨Ioc.read, 28, echoIocMagic, 3⟩

/-- `_IOW(ECHO_IOC_MAGIC, 4, __u32)` -/
def echoIocSetModeNumber : Ioc := ⟨Ioc.write, 4, echoIocMagic, 4⟩

example : (echoIocGetStateNumber.size : Nat) = sizeof echoSnapshotSizes := rfl

/-- `copy_from_user` of a number of `size` bytes. -/
def copyFromUser (memory : Nat → Nat) (readable : Bool) (size : Nat) : Option Nat :=
  if readable then some (word memory 0 size) else none

/-- The `switch` over the number of the command, with the argument that the case copies. -/
def EchoIoc.ofNumber (cmd : Nat) (memory : Nat → Nat) (readable : Bool) : EchoIoc :=
  if cmd = echoIocSetSpeedNumber.pack then .setSpeed (copyFromUser memory readable 2)
  else if cmd = echoIocResetNumber.pack then .reset
  else if cmd = echoIocGetStateNumber.pack then .getState
  else if cmd = echoIocSetModeNumber.pack then .setMode (copyFromUser memory readable 4)
  else .unknown

/-- A command touches the memory that its number announces: it reads no more bytes than
the argument has, and none if it has none or is written to, and it hands out exactly the
bytes of an argument that is written to. -/
structure AsAnnounced (cmd : Nat) : Prop where
  reads : ∀ memory other readable, (∀ key < (Ioc.unpack cmd).size.val, memory key = other key) →
    EchoIoc.ofNumber cmd memory readable = EchoIoc.ofNumber cmd other readable
  leaves : (Ioc.unpack cmd).direction ≠ Ioc.write → ∀ memory other readable readable',
    EchoIoc.ofNumber cmd memory readable = EchoIoc.ofNumber cmd other readable'
  hands : ∀ memory readable,
    (Request.ioctl (EchoIoc.ofNumber cmd memory readable)).snapshots = true →
      (Ioc.unpack cmd).direction = Ioc.read ∧ (Ioc.unpack cmd).size.val =
        (Request.ioctl (EchoIoc.ofNumber cmd memory readable)).toCopy
  foreign : (Ioc.unpack cmd).kind ≠ echoIocMagic → ∀ memory readable,
    EchoIoc.ofNumber cmd memory readable = .unknown

section Numbers
variable {cmd : Nat} {memory other : Nat → Nat} {readable : Bool}

theorem copyFromUser_congr {size : Nat} (same : ∀ key < size, memory key = other key) :
    copyFromUser memory readable size = copyFromUser other readable size := by
  have read : word memory 0 size = word other 0 size := by
    apply word_congr
    intro index inside
    rw [Nat.zero_add]
    exact same index inside
  rw [copyFromUser, copyFromUser, read]

/-- The four commands, and everything else. -/
inductive Numbered (cmd : Nat) : Prop
  | setSpeed (number : Ioc.unpack cmd = echoIocSetSpeedNumber)
      (named : ∀ memory readable, EchoIoc.ofNumber cmd memory readable =
        .setSpeed (copyFromUser memory readable 2))
  | reset (number : Ioc.unpack cmd = echoIocResetNumber)
      (named : ∀ memory readable, EchoIoc.ofNumber cmd memory readable = .reset)
  | getState (number : Ioc.unpack cmd = echoIocGetStateNumber)
      (named : ∀ memory readable, EchoIoc.ofNumber cmd memory readable = .getState)
  | setMode (number : Ioc.unpack cmd = echoIocSetModeNumber)
      (named : ∀ memory readable, EchoIoc.ofNumber cmd memory readable =
        .setMode (copyFromUser memory readable 4))
  | unknown (named : ∀ memory readable, EchoIoc.ofNumber cmd memory readable = .unknown)

theorem numbered (word : cmd < 2 ^ 32) : Numbered cmd := by
  by_cases speed : cmd = echoIocSetSpeedNumber.pack
  · refine .setSpeed ((Ioc.eq_pack_iff word _).mp speed) fun memory readable => ?_
    rw [EchoIoc.ofNumber, if_pos speed]
  by_cases reset : cmd = echoIocResetNumber.pack
  · refine .reset ((Ioc.eq_pack_iff word _).mp reset) fun memory readable => ?_
    rw [EchoIoc.ofNumber, if_neg speed, if_pos reset]
  by_cases state : cmd = echoIocGetStateNumber.pack
  · refine .getState ((Ioc.eq_pack_iff word _).mp state) fun memory readable => ?_
    rw [EchoIoc.ofNumber, if_neg speed, if_neg reset, if_pos state]
  by_cases mode : cmd = echoIocSetModeNumber.pack
  · refine .setMode ((Ioc.eq_pack_iff word _).mp mode) fun memory readable => ?_
    rw [EchoIoc.ofNumber, if_neg speed, if_neg reset, if_neg state, if_pos mode]
  · refine .unknown fun memory readable => ?_
    rw [EchoIoc.ofNumber, if_neg speed, if_neg reset, if_neg state, if_neg mode]

/-- What the driver does with the memory of user space stands in the number. -/
theorem ioctl_as_announced (word : cmd < 2 ^ 32) : AsAnnounced cmd where
  reads memory other readable same := by
    cases numbered word with
    | setSpeed number named =>
      rw [number] at same
      rw [named, named, @copyFromUser_congr memory other readable 2 same]
    | setMode number named =>
      rw [number] at same
      rw [named, named, @copyFromUser_congr memory other readable 4 same]
    | reset number named => rw [named, named]
    | getState number named => rw [named, named]
    | unknown named => rw [named, named]
  leaves outward memory other readable readable' := by
    cases numbered word with
    | setSpeed number named => exact absurd (congrArg Ioc.direction number) outward
    | setMode number named => exact absurd (congrArg Ioc.direction number) outward
    | reset number named => rw [named, named]
    | getState number named => rw [named, named]
    | unknown named => rw [named, named]
  hands memory readable hands := by
    cases numbered word with
    | getState number named =>
      rw [number, named]
      exact ⟨rfl, rfl⟩
    | setSpeed number named => simp [named, Request.snapshots] at hands
    | setMode number named => simp [named, Request.snapshots] at hands
    | reset number named => simp [named, Request.snapshots] at hands
    | unknown named => simp [named, Request.snapshots] at hands
  foreign other := by
    cases numbered word with
    | unknown named => exact named
    | setSpeed number named => exact absurd (congrArg Ioc.kind number) other
    | setMode number named => exact absurd (congrArg Ioc.kind number) other
    | reset number named => exact absurd (congrArg Ioc.kind number) other
    | getState number named => exact absurd (congrArg Ioc.kind number) other

end Numbers

theorem ioctl_as_announced_setMode : echoIocSetModeNumber.pack < 2 ^ 32 ∧
    AsAnnounced echoIocSetModeNumber.pack :=
  ⟨by decide, ioctl_as_announced (by decide)⟩

end EchoRobot
