import Mathlib.Data.Fin.Basic
import Mathlib.Algebra.Order.Ring.Nat

/-! Numbers of `ioctl` commands. A number packs the direction of the argument, its size,
the letter of the driver and the command within the driver. -/

namespace EchoRobot.Bytes

structure Ioc where
  direction : Fin 4
  size : Fin 16384
  kind : Fin 256
  number : Fin 256
  deriving DecidableEq, Repr

namespace Ioc

/-- No argument, one that the driver reads, and one that it writes. -/
def none : Fin 4 := 0
def write : Fin 4 := 1
def read : Fin 4 := 2

def pack (ioc : Ioc) : Nat :=
  ioc.direction * 2 ^ 30 + ioc.size * 2 ^ 16 + ioc.kind * 2 ^ 8 + ioc.number

def unpack (cmd : Nat) : Ioc where
  direction := ⟨cmd / 2 ^ 30 % 4, Nat.mod_lt _ (by decide)⟩
  size := ⟨cmd / 2 ^ 16 % 16384, Nat.mod_lt _ (by decide)⟩
  kind := ⟨cmd / 2 ^ 8 % 256, Nat.mod_lt _ (by decide)⟩
  number := ⟨cmd % 256, Nat.mod_lt _ (by decide)⟩

theorem unpack_pack (ioc : Ioc) : unpack ioc.pack = ioc := by
  obtain ⟨⟨direction, four⟩, ⟨size, sized⟩, ⟨kind, letter⟩, ⟨number, small⟩⟩ := ioc
  simp only [unpack, pack, mk.injEq, Fin.mk.injEq]
  omega

theorem pack_unpack {cmd : Nat} (word : cmd < 2 ^ 32) : (unpack cmd).pack = cmd := by
  simp only [unpack, pack]
  omega

/-- A number is that of a command if and only if it unpacks to it. -/
theorem eq_pack_iff {cmd : Nat} (word : cmd < 2 ^ 32) (ioc : Ioc) :
    cmd = ioc.pack ↔ unpack cmd = ioc := by
  constructor
  · rintro rfl
    exact unpack_pack ioc
  · rintro rfl
    exact (pack_unpack word).symm

end Ioc

end EchoRobot.Bytes
