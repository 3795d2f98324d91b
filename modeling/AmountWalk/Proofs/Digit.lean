import AmountWalk.Policy

/-!
# Digits as characters

A digit that is drawn is a number, a digit that is read is a character. Here the two are tied
together: `digitChar` and `digitValue?` undo each other on the ten digits, and each class reads a
range of ASCII characters and nothing else.

Consequently a class reads whatever is drawn for it (`reads_digitChar_clamp`), also when the source
answered with a number that is no digit at all.
-/

namespace AmountWalk

/-- An ASCII digit. -/
def IsDigit (ch : Char) : Prop := '0' ≤ ch ∧ ch ≤ '9'

/-- An ASCII digit that a number may start with. -/
def IsLeading (ch : Char) : Prop := '1' ≤ ch ∧ ch ≤ '9'

instance (ch : Char) : Decidable (IsDigit ch) :=
  inferInstanceAs (Decidable (_ ∧ _))

instance (ch : Char) : Decidable (IsLeading ch) :=
  inferInstanceAs (Decidable (_ ∧ _))

theorem isDigit_iff {ch : Char} : IsDigit ch ↔ 48 ≤ ch.toNat ∧ ch.toNat ≤ 57 := Iff.rfl

theorem isLeading_iff {ch : Char} : IsLeading ch ↔ 49 ≤ ch.toNat ∧ ch.toNat ≤ 57 := Iff.rfl

theorem IsLeading.isDigit {ch : Char} (h : IsLeading ch) : IsDigit ch := by
  rw [isLeading_iff] at h
  rw [isDigit_iff]
  omega

/-- A character whose code is too small or too great is no digit. -/
theorem IsDigit.ne {ch other : Char} (h : IsDigit ch)
    (hother : other.toNat < 48 ∨ 57 < other.toNat) : ch ≠ other := by
  rintro rfl
  rw [isDigit_iff] at h
  omega

/-! ## Reading what was written -/

/-- A digit is read back from its character. -/
theorem digitValue?_digitChar {digit : UInt8} (h : digit ≤ 9) :
    digitValue? (digitChar digit) = some digit := by
  have hall : ∀ e ∈ List.range 10,
      digitValue? (digitChar (UInt8.ofNat e)) = some (UInt8.ofNat e) := by decide
  have hlt : digit.toNat < 10 := by
    rw [UInt8.le_iff_toNat_le] at h
    exact Nat.lt_succ_of_le h
  simpa using hall digit.toNat (List.mem_range.mpr hlt)

/-- The value of a character that is an ASCII digit. -/
theorem digitValue?_of_isDigit {ch : Char} (h : IsDigit ch) :
    digitValue? ch = some (UInt8.ofNat (ch.toNat - 48)) := if_pos h

theorem digitValue?_of_not_isDigit {ch : Char} (h : ¬ IsDigit ch) : digitValue? ch = none :=
  if_neg h

/-- The value of a digit as a number. -/
theorem toNat_digitValue {ch : Char} (h : IsDigit ch) :
    (UInt8.ofNat (ch.toNat - 48)).toNat = ch.toNat - 48 := by
  rw [isDigit_iff] at h
  exact UInt8.toNat_ofNat_of_lt' (by show ch.toNat - 48 < 256; omega)

/-- An ASCII digit is the character of its value. -/
theorem digitChar_digitValue {ch : Char} (h : IsDigit ch) :
    digitChar (UInt8.ofNat (ch.toNat - 48)) = ch := by
  unfold digitChar
  rw [toNat_digitValue h, show '0'.toNat + (ch.toNat - 48) = ch.toNat from by
    rw [isDigit_iff] at h
    show 48 + (ch.toNat - 48) = ch.toNat
    omega]
  exact Char.ofNat_toNat ch

/-! ## What the classes read -/

theorem DigitClass.reads_of_isDigit {cls : DigitClass} {ch : Char} (h : IsDigit ch) :
    cls.reads ch = cls.contains (UInt8.ofNat (ch.toNat - 48)) := by
  unfold DigitClass.reads
  rw [digitValue?_of_isDigit h]
  rfl

theorem DigitClass.isDigit_of_reads {cls : DigitClass} {ch : Char} (h : cls.reads ch = true) :
    IsDigit ch := by
  by_cases hd : IsDigit ch
  · exact hd
  · unfold DigitClass.reads at h
    rw [digitValue?_of_not_isDigit hd] at h
    simp at h

/-- **The class of all digits reads the ASCII digits.** -/
theorem DigitClass.reads_any_iff {ch : Char} : any.reads ch = true ↔ IsDigit ch := by
  refine ⟨isDigit_of_reads, fun h => ?_⟩
  rw [reads_of_isDigit h, contains_iff, UInt8.le_iff_toNat_le, UInt8.le_iff_toNat_le,
    toNat_digitValue h]
  rw [isDigit_iff] at h
  exact ⟨Nat.zero_le _, by show ch.toNat - 48 ≤ 9; omega⟩

/-- **The other class reads those that a number may start with.** -/
theorem DigitClass.reads_nonZero_iff {ch : Char} : nonZero.reads ch = true ↔ IsLeading ch := by
  constructor
  · intro h
    have hd := isDigit_of_reads h
    rw [reads_of_isDigit hd, contains_iff, UInt8.le_iff_toNat_le, toNat_digitValue hd] at h
    have hlow : 1 ≤ ch.toNat - 48 := h.1
    rw [isDigit_iff] at hd
    rw [isLeading_iff]
    omega
  · intro h
    rw [reads_of_isDigit h.isDigit, contains_iff, UInt8.le_iff_toNat_le, UInt8.le_iff_toNat_le,
      toNat_digitValue h.isDigit]
    rw [isLeading_iff] at h
    exact ⟨by show 1 ≤ ch.toNat - 48; omega, by show ch.toNat - 48 ≤ 9; omega⟩

@[simp] theorem Label.reads_literal_iff {c ch : Char} :
    (literal c).reads ch = true ↔ ch = c := by
  show (c == ch) = true ↔ ch = c
  rw [beq_iff_eq]
  exact eq_comm

@[simp] theorem Label.reads_any_iff {ch : Char} :
    (digits .any).reads ch = true ↔ IsDigit ch := DigitClass.reads_any_iff

@[simp] theorem Label.reads_nonZero_iff {ch : Char} :
    (digits .nonZero).reads ch = true ↔ IsLeading ch := DigitClass.reads_nonZero_iff

theorem DigitClass.le_nine_of_contains {cls : DigitClass} {digit : UInt8}
    (h : cls.contains digit = true) : digit ≤ 9 := by
  rw [contains_iff] at h
  cases cls <;> exact h.2

/-- A class reads the characters of its digits. -/
theorem DigitClass.reads_digitChar {cls : DigitClass} {digit : UInt8}
    (h : cls.contains digit = true) : cls.reads (digitChar digit) = true := by
  unfold DigitClass.reads
  rw [digitValue?_digitChar (le_nine_of_contains h)]
  exact h

/-- **A class reads what is drawn for it,** whatever the source answers. -/
theorem DigitClass.reads_digitChar_clamp (cls : DigitClass) (raw : UInt8) :
    cls.reads (digitChar (cls.clamp raw)) = true :=
  reads_digitChar (cls.contains_clamp raw)

/-- Digits are told apart by their characters. -/
theorem DigitClass.eq_of_digitChar_eq {cls cls' : DigitClass} {a b : UInt8}
    (ha : cls.contains a = true) (hb : cls'.contains b = true) (h : digitChar a = digitChar b) :
    a = b := by
  have hread := digitValue?_digitChar (le_nine_of_contains ha)
  rw [h, digitValue?_digitChar (le_nine_of_contains hb)] at hread
  exact (Option.some.inj hread).symm

/-- Whatever a class reads is the character of a digit of the class. -/
theorem DigitClass.exists_digit_of_reads {cls : DigitClass} {ch : Char}
    (h : cls.reads ch = true) : ∃ digit, cls.contains digit = true ∧ digitChar digit = ch := by
  have hd := isDigit_of_reads h
  refine ⟨UInt8.ofNat (ch.toNat - 48), ?_, digitChar_digitValue hd⟩
  rw [← reads_of_isDigit hd]
  exact h

/-! ## Drawing a digit -/

/-- A digit is drawn, clamped and emitted. -/
theorem Draws.run_emitDrawn {σ γ : Type} [ChoiceSource γ] (dst : σ) (cls : DigitClass)
    (source : γ) :
    (Draws.emitDrawn dst cls).run source
      = (.emit dst (digitChar (cls.clamp (ChoiceSource.digit cls source).1)),
          (ChoiceSource.digit cls source).2) := rfl

end AmountWalk
