import Mathlib.Data.List.Basic

/-! The window of the last entries of a log, which a bounded queue holds that drops
its oldest entry when it is full. -/

namespace EchoRobot.Logs

universe u
variable {Entry : Type u} {size : Nat} {log : List Entry}

def window (size : Nat) (log : List Entry) : List Entry := log.drop (log.length - size)

theorem window_suffix : window size log <:+ log := List.drop_suffix _ _

theorem length_window : (window size log).length = min log.length size := by
  unfold window
  rw [List.length_drop]
  omega

/-- A log that fits is its own window. -/
theorem window_of_le (fits : log.length ≤ size) : window size log = log := by
  unfold window
  rw [Nat.sub_eq_zero_of_le fits, List.drop_zero]

/-- The window moves on by dropping its oldest entry when it is full. -/
theorem window_snoc (positive : 0 < size) (entry : Entry) :
    window size (log ++ [entry]) =
      (if size ≤ (window size log).length then (window size log).drop 1 else window size log) ++
        [entry] := by
  have inside : (log ++ [entry]).length - size ≤ log.length := by
    rw [List.length_append, List.length_singleton]
    omega
  have split : window size (log ++ [entry]) =
      log.drop ((log ++ [entry]).length - size) ++ [entry] := by
    unfold window
    rw [List.drop_append_of_le_length inside]
  rw [split, length_window]
  congr 1
  rw [List.length_append, List.length_singleton]
  split
  · rename_i full
    unfold window
    rw [List.drop_drop]
    congr 1
    omega
  · rename_i room
    rw [window_of_le (by omega), Nat.sub_eq_zero_of_le (by omega), List.drop_zero]

end EchoRobot.Logs
