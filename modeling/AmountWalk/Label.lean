/-!
# Labels

What one transition of an automaton reads: a single literal character, or any one decimal digit of
a class. Digits are ASCII digits only; a digit of another script is an ordinary character.

## Overlap

`Label.overlaps` decides whether some character is read by both of two labels.
`Label.overlaps_iff` says so for all labels, hence the order of the two does not matter.
-/

namespace AmountWalk

/-! ## Digit classes -/

/-- A run of decimal digits that one transition reads. -/
inductive DigitClass where
  /-- The digits `1` to `9`. -/
  | nonZero
  /-- The digits `0` to `9`. -/
  | any
  deriving DecidableEq

/-- The character that writes a digit. -/
def digitChar (digit : UInt8) : Char :=
  Char.ofNat ('0'.toNat + digit.toNat)

/-- The digit that a character writes, if it is an ASCII digit. -/
def digitValue? (ch : Char) : Option UInt8 :=
  if '0' ≤ ch ∧ ch ≤ '9' then some (UInt8.ofNat (ch.toNat - '0'.toNat)) else none

namespace DigitClass

/-- The least digit of the class. -/
def lowest : DigitClass → UInt8
  | nonZero => 1
  | any => 0

/-- The greatest digit of the class. -/
def highest : DigitClass → UInt8
  | nonZero => 9
  | any => 9

/-- Whether a digit belongs to the class. -/
def contains (cls : DigitClass) (digit : UInt8) : Bool :=
  cls.lowest ≤ digit && digit ≤ cls.highest

/-- The digit of the class that is nearest to the given one. -/
def clamp (cls : DigitClass) (digit : UInt8) : UInt8 :=
  if digit < cls.lowest then cls.lowest
  else if cls.highest < digit then cls.highest
  else digit

def reads (cls : DigitClass) (ch : Char) : Bool :=
  (digitValue? ch).any cls.contains

/-- The class as a diagram shows it, such as `[1-9]`. -/
def text (cls : DigitClass) : List Char :=
  ['[', digitChar cls.lowest, '-', digitChar cls.highest, ']']

theorem contains_iff {cls : DigitClass} {digit : UInt8} :
    cls.contains digit = true ↔ cls.lowest ≤ digit ∧ digit ≤ cls.highest := by
  simp [contains]

theorem lowest_le_highest (cls : DigitClass) : cls.lowest ≤ cls.highest := by
  cases cls <;> decide

/-- A clamped digit belongs to the class. -/
theorem contains_clamp (cls : DigitClass) (digit : UInt8) :
    cls.contains (cls.clamp digit) = true := by
  have h := cls.lowest_le_highest
  simp only [contains_iff, clamp, UInt8.le_iff_toNat_le, UInt8.lt_iff_toNat_lt] at h ⊢
  split
  · exact ⟨Nat.le_refl _, h⟩
  · split <;> omega

/-- A digit of the class is its own clamp. -/
theorem clamp_of_contains {cls : DigitClass} {digit : UInt8}
    (h : cls.contains digit = true) : cls.clamp digit = digit := by
  rw [contains_iff] at h
  rw [clamp, if_neg (UInt8.not_lt.mpr h.1), if_neg (UInt8.not_lt.mpr h.2)]

end DigitClass

/-! ## Labels -/

/-- What one transition reads. -/
inductive Label where
  /-- Exactly this character. -/
  | literal (ch : Char)
  | digits (cls : DigitClass)
  deriving DecidableEq

namespace Label

def reads : Label → Char → Bool
  | literal c, ch => c == ch
  | digits cls, ch => cls.reads ch

/-- Whether some character is read by both labels. -/
def overlaps : Label → Label → Bool
  | literal a, literal b => a == b
  | literal c, digits cls => cls.reads c
  | digits cls, literal c => cls.reads c
  | digits a, digits b => a.lowest ≤ b.highest && b.lowest ≤ a.highest

/-- The label as a diagram shows it. -/
def text : Label → List Char
  | literal c => [c]
  | digits cls => cls.text

/-- **Overlap is a common character.** -/
theorem overlaps_iff {a b : Label} :
    a.overlaps b = true ↔ ∃ ch, a.reads ch = true ∧ b.reads ch = true := by
  cases a with
  | literal x =>
    cases b with
    | literal y => simp [overlaps, reads]; grind
    | digits c => simp [overlaps, reads]
  | digits c =>
    cases b with
    | literal y => simp [overlaps, reads]
    | digits d =>
      refine ⟨fun _ => ⟨'9', ?_⟩, fun _ => ?_⟩ <;> cases c <;> cases d <;> decide

/-- The order of the labels does not matter. -/
theorem overlaps_comm (a b : Label) : a.overlaps b = b.overlaps a := by
  rw [Bool.eq_iff_iff, overlaps_iff, overlaps_iff]
  exact ⟨fun ⟨ch, h, h'⟩ => ⟨ch, h', h⟩, fun ⟨ch, h, h'⟩ => ⟨ch, h', h⟩⟩

end Label

end AmountWalk
