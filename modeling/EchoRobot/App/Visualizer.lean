import EchoRobot.App.Screen
import EchoRobot.Logs.Store
import EchoRobot.Texts.Template

/-! The status box on the screen: bars that are stored into buffers on the stack, and rows
that are printed from the snapshot. -/

namespace EchoRobot.App

open Interleaving Logs Texts

/-- The byte that ends a string. -/
def nul : Char := Char.ofNat 0

/-- A store of a character into a buffer. -/
def charStore (entry : Nat × Char) (index : Nat) : Option Char :=
  if index = entry.1 then some entry.2 else none

/-- The stores of `format_bar`, in order. -/
def formatBar (filled : Int) (barLen : Nat) : List (Nat × Char) :=
  let filled := if (barLen : Int) < filled then (barLen : Int) else filled
  let filled := if filled < 0 then 0 else filled
  (0, '[') :: (List.range barLen).map (fun (i : Nat) =>
    (1 + i, if (i : Int) < filled then '#' else '-')) ++ [(1 + barLen, ']'), (2 + barLen, nul)]

/-- What `%s` prints of a buffer. -/
def cString (size : Nat) (buf : Nat → Char) : List Char :=
  ((List.range size).map buf).takeWhile fun ch => ch != nul

def sizeofBar : Nat := 32
def barLen : Nat := 18

/-- The bar of an angle, in a buffer with any contents. -/
def barOf (buf : Nat → Char) (angle : Nat) : List Char :=
  cString sizeofBar (replay charStore buf (formatBar (angle * barLen / 180 : Nat) barLen))

/-- A bar with `hashes` of its places filled. -/
def bar (hashes length : Nat) : List Char :=
  '[' :: (List.replicate hashes '#' ++ List.replicate (length - hashes) '-') ++ [']']

section Bar
variable {filled length size : Nat}

/-- The bar place by place, for any number of filled places. -/
theorem bar_places (length : Nat) (filled : Int) :
    (List.range length).map (fun (i : Nat) => if (i : Int) < filled then '#' else '-') =
      List.replicate (min filled.toNat length) '#' ++
        List.replicate (length - min filled.toNat length) '-' := by
  refine List.ext_getElem (by simp) fun i inside _ => ?_
  rw [List.length_map, List.length_range] at inside
  rw [List.getElem_map, List.getElem_range]
  by_cases hash : (i : Int) < filled
  · rw [if_pos hash, List.getElem_append_left (by simp; omega), List.getElem_replicate]
  · rw [if_neg hash, List.getElem_append_right (by simp; omega), List.getElem_replicate]

/-- What `format_bar` leaves at an index. -/
def cell (filled : Int) (length index : Nat) : Char :=
  if index = 0 then '[' else
  if index ≤ length then (if ((index - 1 : Nat) : Int) < filled then '#' else '-') else
  if index = length + 1 then ']' else nul

/-- The clamps do not change which places are filled. -/
theorem formatBar_eq (filled : Int) (length : Nat) :
    formatBar filled length = (0, cell filled length 0) ::
      (List.range length).map (fun i => (1 + i, cell filled length (1 + i))) ++
        [(1 + length, cell filled length (1 + length)),
          (2 + length, cell filled length (2 + length))] := by
  have places : (List.range length).map (fun (i : Nat) =>
      (1 + i, if (i : Int) < (if (if (length : Int) < filled then (length : Int) else filled) < 0
        then 0 else if (length : Int) < filled then (length : Int) else filled)
        then '#' else '-')) =
      (List.range length).map (fun i => (1 + i, cell filled length (1 + i))) := by
    refine List.map_congr_left fun i member => ?_
    have inside := List.mem_range.mp member
    have here : cell filled length (1 + i) = if (i : Int) < filled then '#' else '-' := by
      rw [cell, if_neg (by omega), if_pos (by omega), Nat.add_sub_cancel_left]
    rw [here]
    congr 2
    split <;> split <;> simp only [eq_iff_iff] <;> omega
  have closing : cell filled length (1 + length) = ']' := by
    rw [cell, if_neg (by omega), if_neg (by omega), if_pos (by omega)]
  have last : cell filled length (2 + length) = nul := by
    rw [cell, if_neg (by omega), if_neg (by omega), if_neg (by omega)]
  rw [← places, closing, last]
  rfl

/-- Each store puts the character of its place, and all places have one. -/
theorem mem_formatBar {filled : Int} {entry : Nat × Char} :
    entry ∈ formatBar filled length ↔
      entry.1 < length + 3 ∧ entry.2 = cell filled length entry.1 := by
  obtain ⟨index, ch⟩ := entry
  simp only [formatBar_eq, List.cons_append, List.mem_cons, List.mem_append, List.mem_map,
    List.mem_range, List.not_mem_nil, or_false, Prod.mk.injEq]
  constructor
  · rintro (⟨rfl, rfl⟩ | ⟨i, inside, rfl, rfl⟩ | ⟨rfl, rfl⟩ | ⟨rfl, rfl⟩)
    · exact ⟨by omega, rfl⟩
    · exact ⟨by omega, rfl⟩
    · exact ⟨by omega, rfl⟩
    · exact ⟨by omega, rfl⟩
  · rintro ⟨inside, rfl⟩
    obtain rfl | ⟨i, below, rfl⟩ | rfl | rfl :
        index = 0 ∨ (∃ i < length, index = 1 + i) ∨ index = 1 + length ∨ index = 2 + length := by
      by_cases zero : index = 0
      · exact Or.inl zero
      by_cases place : index ≤ length
      · exact Or.inr (Or.inl ⟨index - 1, by omega, by omega⟩)
      · omega
    · exact Or.inl ⟨rfl, rfl⟩
    · exact Or.inr (Or.inl ⟨i, below, rfl, rfl⟩)
    · exact Or.inr (Or.inr (Or.inl ⟨rfl, rfl⟩))
    · exact Or.inr (Or.inr (Or.inr ⟨rfl, rfl⟩))

theorem inside_formatBar {filled : Int} {entry : Nat × Char}
    (member : entry ∈ formatBar filled length) : entry.1 < length + 3 :=
  (mem_formatBar.mp member).1

/-- What the buffer held before is covered. -/
theorem replay_formatBar (buf : Nat → Char) (filled : Int) {index : Nat}
    (inside : index < length + 3) :
    replay charStore buf (formatBar filled length) index = cell filled length index := by
  apply replay_agreed
  · exact ⟨(index, cell filled length index), mem_formatBar.mpr ⟨inside, rfl⟩, by simp [charStore]⟩
  · intro entry member other written
    unfold charStore at written
    split at written <;> cases written
    rename_i same
    rw [(mem_formatBar.mp member).2, same]

theorem cells_eq (filled : Int) (length : Nat) :
    (List.range (length + 3)).map (cell filled length) =
      bar (min filled.toNat length) length ++ [nul] := by
  have places : (List.range length).map (fun i => cell filled length (i + 1)) =
      (List.range length).map (fun (i : Nat) => if (i : Int) < filled then '#' else '-') := by
    refine List.map_congr_left fun i member => ?_
    have inside := List.mem_range.mp member
    rw [cell, if_neg (by omega), if_pos (by omega), Nat.add_sub_cancel]
  have closing : cell filled length (length + 1) = ']' := by
    rw [cell, if_neg (by omega), if_neg (by omega), if_pos rfl]
  have last : cell filled length (length + 2) = nul := by
    rw [cell, if_neg (by omega), if_neg (by omega), if_neg (by omega)]
  rw [List.range_succ, List.range_succ, List.range_succ_eq_map]
  simp only [List.map_append, List.map_cons, List.map_map, List.map_nil, closing, last]
  rw [bar, ← bar_places, ← places]
  rfl

/-- `%s` prints the bar, whatever the buffer held. -/
theorem cString_formatBar (buf : Nat → Char) (filled : Int) (fits : length + 3 ≤ size) :
    cString size (replay charStore buf (formatBar filled length)) =
      bar (min filled.toNat length) length := by
  obtain ⟨beyond, rfl⟩ := Nat.exists_eq_add_of_le fits
  have stored : (List.range (length + 3)).map (replay charStore buf (formatBar filled length)) =
      bar (min filled.toNat length) length ++ [nul] := by
    rw [← cells_eq]
    exact List.map_congr_left fun index member =>
      replay_formatBar buf filled (List.mem_range.mp member)
  have solid : ∀ ch ∈ bar (min filled.toNat length) length, (ch != nul) = true := by
    intro ch member
    simp only [bar, List.mem_cons, List.mem_append, List.mem_replicate, List.not_mem_nil,
      or_false, List.cons_append] at member
    rcases member with rfl | (⟨-, rfl⟩ | ⟨-, rfl⟩) | rfl <;> decide
  rw [cString, List.range_add, List.map_append, stored, List.append_assoc,
    List.takeWhile_append_of_pos solid]
  simp

end Bar

/-! ### The status box -/

def modeName (mode : Nat) : List Char :=
  if mode = EchoMode.idle.value then "IDLE".toList
  else if mode = EchoMode.teach.value then "TEACH".toList
  else if mode = EchoMode.replay.value then "REPLAY".toList
  else "UNKNOWN".toList

def barConv : Conversion Value := wordConv fun ch => decide (ch ∈ ['[', '#', '-', ']'])

def border : Piece Value := .text "+------------------------------------+\n".toList

def angleRow (label : String) : List (Piece Value) :=
  [.text label.toList, .field barConv 0 false, .text " ".toList, .field unsignedConv 3 false,
    .text "  |\n".toList]

def counterRow (label : String) : List (Piece Value) :=
  [.text label.toList, .field unsignedConv 26 true, .text " |\n".toList]

/-- The rows of the box, each ended by a newline. -/
def statusBox : List (Piece Value) :=
  border :: .text "|       PROJECT ECHO STATUS          |\n".toList :: border ::
  .text "| Mode:    ".toList :: .field (wordConv Char.isAlpha) 26 true :: .text " |\n".toList ::
  (angleRow "| Pan:     " ++ (angleRow "| Tilt:    " ++ (angleRow "| Tilt2:   " ++
  (.text "| Buffer:  ".toList :: .field unsignedConv 3 true :: .text " / ".toList ::
    .field signedConv 21 true :: .text " |\n".toList ::
  (counterRow "| Moves:   " ++ (counterRow "| Replays: " ++ (counterRow "| IRQs:    " ++
  [border])))))))

/-- The box that `echo_visualizer_render` draws, with its bars in these buffers. -/
def echoVisualizerRender (buf : Fin echoNumServos → Nat → Char) (snap : EchoSnapshot) :
    List Char :=
  print statusBox [.word (modeName snap.mode),
    .word (barOf (buf echoServoPan) snap.panAngle), .number snap.panAngle,
    .word (barOf (buf echoServoTilt) snap.tiltAngle), .number snap.tiltAngle,
    .word (barOf (buf echoServoTilt2) snap.tilt2Angle), .number snap.tilt2Angle,
    .number snap.bufferCount, .signed echoFifoSize, .number snap.totalMoves,
    .number snap.totalReplays, .number snap.irqCount]

/-- Reads the box: the snapshot, and the bars of the three servos. -/
def readBox (text : List Char) : Option (EchoSnapshot × List (List Char)) :=
  (scan statusBox (squeeze text)).bind fun
    | [.word mode, .word panBar, .number pan, .word tiltBar, .number tilt, .word tilt2Bar,
        .number tilt2, .number count, .signed _, .number moves, .number replays, .number irqs] =>
      ([EchoMode.idle, .teach, .replay].find? fun known => modeName known.value == mode).map
        fun known => (⟨known.value, pan, tilt, tilt2, count, moves, replays, irqs⟩,
          [panBar, tiltBar, tilt2Bar])
    | _ => none

section Box
variable {pieces : List (Piece Value)} {vals : List Value}

theorem separated_angleRow (label : String) (separated : Separated pieces) :
    Separated (angleRow label ++ pieces) := by
  refine ⟨rfl, fun ch digit => ?_, rfl, rfl, separated⟩
  refine decide_eq_false fun member => ?_
  simp only [List.mem_cons, List.not_mem_nil, or_false] at member
  rcases member with rfl | rfl | rfl | rfl <;> revert digit <;> decide

theorem separated_counterRow (label : String) (separated : Separated pieces) :
    Separated (counterRow label ++ pieces) := ⟨rfl, rfl, separated⟩

theorem separated_statusBox : Separated statusBox := by
  unfold statusBox border
  simp only [Separated]
  refine ⟨rfl, rfl, ?_⟩
  iterate 3 refine separated_angleRow _ ?_
  refine ⟨rfl, rfl, rfl, rfl, ?_⟩
  rw [Separated]
  iterate 3 refine separated_counterRow _ ?_
  trivial

theorem reads_modeName (mode : Nat) : (wordConv Char.isAlpha).Reads (.word (modeName mode)) := by
  unfold modeName
  split
  · exact reads_word (by decide) (by decide)
  split
  · exact reads_word (by decide) (by decide)
  split <;> exact reads_word (by decide) (by decide)

/-- A filled place for every ten degrees. -/
theorem barOf_eq (buf : Nat → Char) (angle : Nat) :
    barOf buf angle = bar (min (angle / 10) barLen) barLen := by
  have tens : angle * barLen / 180 = angle / 10 := by
    unfold barLen
    omega
  rw [barOf, cString_formatBar buf _ (by decide), Int.toNat_natCast, tens]

theorem reads_bar (hashes length : Nat) : barConv.Reads (.word (bar hashes length)) := by
  refine reads_word (by simp [bar]) (List.all_eq_true.mpr fun ch member => ?_)
  simp only [bar, List.mem_cons, List.mem_append, List.mem_replicate, List.not_mem_nil, or_false,
    List.cons_append] at member
  rcases member with rfl | (⟨-, rfl⟩ | ⟨-, rfl⟩) | rfl <;> decide

theorem fits_angleRow (label : String) {bar : List Char} {angle : Nat}
    (reads : barConv.Reads (.word bar)) (fits : Fits pieces vals) :
    Fits (angleRow label ++ pieces) (.word bar :: .number angle :: vals) :=
  ⟨reads, reads_number angle, fits⟩

theorem fits_counterRow (label : String) {count : Nat} (fits : Fits pieces vals) :
    Fits (counterRow label ++ pieces) (.number count :: vals) := ⟨reads_number count, fits⟩

/-- The box is read as the snapshot that it was drawn from. -/
theorem readBox_render (buf : Fin echoNumServos → Nat → Char) (snap : EchoSnapshot)
    {mode : EchoMode} (known : snap.mode = mode.value) :
    readBox (echoVisualizerRender buf snap) =
      some (snap, [snap.panAngle, snap.tiltAngle, snap.tilt2Angle].map fun angle =>
        bar (min (angle / 10) barLen) barLen) := by
  have named : ([EchoMode.idle, .teach, .replay].find? fun known =>
      modeName known.value == modeName mode.value) = some mode := by
    cases mode <;> decide
  obtain ⟨value, pan, tilt, tilt2, count, moves, replays, irqs⟩ := snap
  obtain rfl : value = mode.value := known
  rw [readBox, echoVisualizerRender, scan_print separated_statusBox, Option.bind_some]
  · simp only [named, Option.map_some, barOf_eq, List.map_cons, List.map_nil]
  · unfold statusBox border
    simp only [Fits]
    refine ⟨reads_modeName _, ?_⟩
    iterate 3
      refine fits_angleRow _ ?_ ?_
      · rw [barOf_eq]
        exact reads_bar _ _
    refine ⟨reads_number _, reads_signed _, ?_⟩
    rw [Fits]
    iterate 3 refine fits_counterRow _ ?_
    rfl

end Box

/-- A box drawn from what the reader thread has stored. Its last row is the interrupts that
were counted then. -/
structure ShowsDevice (buf : Fin echoNumServos → Nat → Char) (snap : EchoSnapshot)
    (dev : EchoDevice) : Prop where
  read : readBox (echoVisualizerRender buf snap) =
    some ({ dev.robot.snapshot with irqCount := snap.irqCount },
      [echoServoPan, echoServoTilt, echoServoTilt2].map fun servo =>
        bar (min (dev.servo.pos servo / 10) barLen) barLen)
  inside : ∀ angle, ∀ store ∈ formatBar (angle * barLen / 180 : Nat) barLen, store.1 < sizeofBar

section Run
variable {servo : EchoServoCtx} {clock : Nat} {acts : List Act}

/-- Whenever the reader sleeps, the box that is drawn reads as the device is, whatever the
stack holds. -/
theorem box_shows_device {final : EchoApp × State}
    (happening : Happening AppHappens (EchoApp.initial, State.initial servo clock) acts final)
    (silent : ∀ act ∈ acts, act.othersRead = false)
    (asleep : final.2.asleep (.proc readerId) = true) (buf : Fin echoNumServos → Nat → Char) :
    ShowsDevice buf final.1.sharedSnap final.2.dev := by
  refine ⟨?_, fun angle store member => ?_⟩
  · have shared := sharedSnap_of_asleep happening silent asleep
    have same : final.1.sharedSnap =
        { final.2.dev.robot.snapshot with irqCount := final.1.sharedSnap.irqCount } :=
      congrArg (fun snap => { snap with irqCount := final.1.sharedSnap.irqCount }) shared
    generalize final.1.sharedSnap.irqCount = irqs at same ⊢
    rw [same]
    exact readBox_render buf { final.2.dev.robot.snapshot with irqCount := irqs } rfl
  · have inside := inside_formatBar member
    unfold sizeofBar
    unfold barLen at inside
    omega

end Run

theorem box_shows_device_upShown : ∃ final : EchoApp × State,
    Happening AppHappens (EchoApp.initial, State.initial simServo 0) upShown final ∧
      (final.1.sharedSnap.tiltAngle = 95 ∧ final.1.sharedSnap.panAngle = 0) ∧
      ∀ buf, ShowsDevice buf final.1.sharedSnap final.2.dev := by
  obtain ⟨final, happening, silent, tilt, pan, asleep⟩ := upShown_asleep
  exact ⟨final, happening, ⟨tilt, pan⟩, box_shows_device happening silent asleep⟩

end EchoRobot.App
