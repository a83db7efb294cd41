import Mathlib.Data.List.Basic
import Mathlib.Data.List.TakeWhile
import Mathlib.Algebra.Order.Ring.Nat

/-! Text printed after a template of fixed text and converted values, and read back by
the same template. Values may be padded with blanks: reading ignores all of them. -/

namespace EchoRobot.Texts

universe u
variable {Val : Type u}

/-- How values are shown, in which characters, and how such characters are read. -/
structure Conversion (Val : Type u) where
  takes : Char → Bool
  shown : Val → List Char
  read : List Char → Option Val

/-- The conversion shows this value so that it can be read. -/
structure Conversion.Reads (conv : Conversion Val) (val : Val) : Prop where
  nonempty : conv.shown val ≠ []
  takes : ∀ ch ∈ conv.shown val, conv.takes ch = true
  read : conv.read (conv.shown val) = some val

inductive Piece (Val : Type u) where
  | text (chars : List Char)
  | field (conv : Conversion Val) (width : Nat) (left : Bool)

/-- A shorter value is filled up with blanks, behind it if it stands left. -/
def pad (width : Nat) (left : Bool) (chars : List Char) : List Char :=
  let blanks := List.replicate (width - chars.length) ' '
  if left then chars ++ blanks else blanks ++ chars

def print : List (Piece Val) → List Val → List Char
  | .text chars :: pieces, vals => chars ++ print pieces vals
  | .field conv width left :: pieces, val :: vals =>
    pad width left (conv.shown val) ++ print pieces vals
  | .field .. :: _, [] => []
  | [], _ => []

def squeeze (chars : List Char) : List Char := chars.filter fun ch => ch != ' '

/-- Reads a text without blanks: each field takes all the characters it can. -/
def scan : List (Piece Val) → List Char → Option (List Val)
  | .text chars :: pieces, input =>
    if (squeeze chars).isPrefixOf input then scan pieces (input.drop (squeeze chars).length)
    else none
  | .field conv _ _ :: pieces, input =>
    (conv.read (input.takeWhile conv.takes)).bind fun val =>
      (scan pieces (input.dropWhile conv.takes)).map fun vals => val :: vals
  | [], input => if input.isEmpty then some [] else none

/-- There is one readable value for each field. -/
def Fits : List (Piece Val) → List Val → Prop
  | .text _ :: pieces, vals => Fits pieces vals
  | .field conv _ _ :: pieces, val :: vals => conv.Reads val ∧ Fits pieces vals
  | .field .. :: _, [] => False
  | [], vals => vals = []

/-- Nothing that a conversion takes can follow. -/
def Ends (conv : Conversion Val) : List (Piece Val) → Prop
  | .text chars :: pieces =>
    match squeeze chars with
    | [] => Ends conv pieces
    | first :: _ => conv.takes first = false
  | .field later _ _ :: _ => ∀ ch, later.takes ch = true → conv.takes ch = false
  | [] => True

/-- The end of each field can be told from what follows. -/
def Separated : List (Piece Val) → Prop
  | .text _ :: pieces => Separated pieces
  | .field conv _ _ :: pieces => conv.takes ' ' = false ∧ Ends conv pieces ∧ Separated pieces
  | [] => True

theorem squeeze_append (first second : List Char) :
    squeeze (first ++ second) = squeeze first ++ squeeze second := List.filter_append ..

theorem squeeze_solid {chars : List Char} (solid : ' ' ∉ chars) : squeeze chars = chars := by
  refine List.filter_eq_self.mpr fun ch member => ?_
  exact bne_iff_ne.mpr fun same => solid (same ▸ member)

@[simp] theorem squeeze_blanks (count : Nat) : squeeze (List.replicate count ' ') = [] := by
  simp [squeeze]

theorem squeeze_pad (width : Nat) (left : Bool) {chars : List Char} (solid : ' ' ∉ chars) :
    squeeze (pad width left chars) = chars := by
  unfold pad
  cases left <;> simp [squeeze_append, squeeze_solid solid]

section Read
variable {conv : Conversion Val} {val : Val}

theorem Conversion.Reads.solid (reads : conv.Reads val) (takes : conv.takes ' ' = false) :
    ' ' ∉ conv.shown val := by
  intro member
  have taken := reads.takes ' ' member
  simp [takes] at taken

/-- A field takes what is shown and no more. -/
theorem takeWhile_shown (reads : conv.Reads val) {rest : List Char}
    (ends : ∀ first, rest.head? = some first → conv.takes first = false) :
    (conv.shown val ++ rest).takeWhile conv.takes = conv.shown val ∧
      (conv.shown val ++ rest).dropWhile conv.takes = rest := by
  rw [List.takeWhile_append_of_pos reads.takes, List.dropWhile_append_of_pos reads.takes]
  cases rest with
  | nil => simp
  | cons first rest =>
    have stop : conv.takes first = false := ends first rfl
    simp [stop]

end Read

section Template
variable {pieces : List (Piece Val)} {vals : List Val}

/-- What is printed behind a field does not begin with a character of it. -/
theorem head_print {conv : Conversion Val} (ends : Ends conv pieces) (separated : Separated pieces)
    (fits : Fits pieces vals) {first : Char}
    (head : (squeeze (print pieces vals)).head? = some first) : conv.takes first = false := by
  induction pieces generalizing vals with
  | nil =>
    simp [print, squeeze] at head
  | cons piece pieces ih =>
    cases piece with
    | text chars =>
      rw [print, squeeze_append, List.head?_append] at head
      simp only [Ends] at ends
      split at ends
      · rename_i empty
        exact ih ends separated fits (by simpa [empty] using head)
      · rename_i start _ begins
        obtain rfl : start = first := by simpa [begins] using head
        exact ends
    | field later width left =>
      cases vals with
      | nil => exact fits.elim
      | cons val vals =>
        have reads := fits.1
        rw [print, squeeze_append, squeeze_pad width left (reads.solid separated.1)] at head
        obtain ⟨start, shown, same⟩ := List.exists_cons_of_ne_nil reads.nonempty
        obtain rfl : start = first := by simpa [same] using head
        exact ends start (reads.takes start (by simp [same]))

/-- What is printed after a template can be read by it. -/
theorem scan_print (separated : Separated pieces) (fits : Fits pieces vals) :
    scan pieces (squeeze (print pieces vals)) = some vals := by
  induction pieces generalizing vals with
  | nil =>
    obtain rfl : vals = [] := fits
    rfl
  | cons piece pieces ih =>
    cases piece with
    | text chars =>
      rw [print, squeeze_append, scan, if_pos (List.isPrefixOf_iff_prefix.mpr ⟨_, rfl⟩),
        List.drop_left]
      exact ih separated fits
    | field conv width left =>
      cases vals with
      | nil => exact fits.elim
      | cons val vals =>
        obtain ⟨solid, ends, separated⟩ := separated
        obtain ⟨reads, fits⟩ := fits
        obtain ⟨taken, left⟩ := takeWhile_shown reads fun _ => head_print ends separated fits
        rw [print, squeeze_append, squeeze_pad _ _ (reads.solid solid), scan, taken, left,
          reads.read, ih separated fits]
        rfl

/-- The room that the values take. -/
def room : List (Piece Val) → List Val → Nat
  | .text _ :: pieces, vals => room pieces vals
  | .field conv width _ :: pieces, val :: vals =>
    max width (conv.shown val).length + room pieces vals
  | .field .. :: _, [] => 0
  | [], _ => 0

end Template

/-! ### The conversions of `printf` -/

/-- A number, a number with a sign, or a word. -/
inductive Value where
  | number (value : Nat)
  | signed (value : Int)
  | word (chars : List Char)
  deriving DecidableEq, Repr

/-- Digits, of which there has to be one. -/
def readDigits (chars : List Char) : Option Nat :=
  if chars.isEmpty then none else some (Nat.ofDigitChars 10 chars 0)

theorem readDigits_toDigits (value : Nat) : readDigits (Nat.toDigits 10 value) = some value := by
  have nonempty : (Nat.toDigits 10 value).isEmpty = false := by
    simp
  simp [readDigits, nonempty, Nat.ofDigitChars_ten_toDigits]

/-- `%u` and `%lu` -/
def unsignedConv : Conversion Value where
  takes := Char.isDigit
  shown
    | .number value => Nat.toDigits 10 value
    | _ => []
  read chars := (readDigits chars).map .number

/-- `%d` -/
def signedConv : Conversion Value where
  takes ch := ch.isDigit || ch == '-'
  shown
    | .signed value => (if value < 0 then ['-'] else []) ++ Nat.toDigits 10 value.natAbs
    | _ => []
  read
    | '-' :: chars => (readDigits chars).map fun (value : Nat) => .signed (-value)
    | chars => (readDigits chars).map fun (value : Nat) => .signed value

/-- `%s`, of words in known characters -/
def wordConv (takes : Char → Bool) : Conversion Value where
  takes := takes
  shown
    | .word chars => chars
    | _ => []
  read chars := some (.word chars)

theorem digits_of_toDigits {value : Nat} {ch : Char} (member : ch ∈ Nat.toDigits 10 value) :
    ch.isDigit = true := Nat.isDigit_of_mem_toDigits (by omega) (by omega) member

theorem reads_number (value : Nat) : unsignedConv.Reads (.number value) where
  nonempty := Nat.toDigits_ne_nil
  takes _ member := digits_of_toDigits member
  read := by simp [unsignedConv, readDigits_toDigits]

theorem reads_signed (value : Int) : signedConv.Reads (.signed value) where
  nonempty := by
    simp [signedConv, Nat.toDigits_ne_nil]
  takes ch member := by
    simp only [signedConv, List.mem_append] at member ⊢
    rcases member with sign | digit
    · split at sign <;> simp_all
    · simp [digits_of_toDigits digit]
  read := by
    by_cases negative : value < 0
    · have back : -(value.natAbs : Int) = value := by omega
      have shown : signedConv.shown (.signed value) = '-' :: Nat.toDigits 10 value.natAbs := by
        simp [signedConv, negative]
      rw [shown]
      simp only [signedConv, readDigits_toDigits, Option.map_some]
      rw [back]
    · have back : (value.natAbs : Int) = value := by omega
      obtain ⟨first, rest, shown⟩ :=
        List.exists_cons_of_ne_nil (@Nat.toDigits_ne_nil value.natAbs 10)
      have digit : first.isDigit = true := digits_of_toDigits (by rw [shown]; simp)
      have sign : first ≠ '-' := by
        rintro rfl
        simp at digit
      have read := readDigits_toDigits value.natAbs
      rw [shown] at read
      simp [signedConv, negative, shown, sign, read, back]

theorem reads_word {takes : Char → Bool} {chars : List Char} (nonempty : chars ≠ [])
    (taken : chars.all takes = true) : (wordConv takes).Reads (.word chars) :=
  ⟨nonempty, List.all_eq_true.mp taken, rfl⟩

end EchoRobot.Texts
