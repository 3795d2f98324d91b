import AmountWalk.Choice

/-!
# Scripted choices

A script holds coin flips and digits in two queues and answers from their fronts. A dry coin queue
answers tails, a dry digit queue the least digit of the class. A digit outside the class is clamped
into it.
-/

namespace AmountWalk

/-- Choices fixed in advance. -/
structure Script where
  /-- The coin flips still to come. -/
  coins : List Bool
  /-- The digits still to come. -/
  digits : List UInt8
  deriving DecidableEq

namespace Script

/-- Whether all choices have been used up. -/
def isExhausted (script : Script) : Bool :=
  script.coins.isEmpty && script.digits.isEmpty

/-- The front of the coin queue. -/
def takeCoin : Script → Bool × Script
  | ⟨[], digits⟩ => (false, ⟨[], digits⟩)
  | ⟨heads :: coins, digits⟩ => (heads, ⟨coins, digits⟩)

/-- The front of the digit queue, clamped into the class. -/
def takeDigit (cls : DigitClass) : Script → UInt8 × Script
  | ⟨coins, []⟩ => (cls.lowest, ⟨coins, []⟩)
  | ⟨coins, digit :: digits⟩ => (cls.clamp digit, ⟨coins, digits⟩)

instance : ChoiceSource Script where
  coin := takeCoin
  digit := takeDigit

/-- A script only ever answers with digits of the class. -/
theorem contains_digit (cls : DigitClass) (script : Script) :
    cls.contains (ChoiceSource.digit cls script).1 = true := by
  obtain ⟨coins, digits⟩ := script
  cases digits with
  | nil => cases cls <;> rfl
  | cons digit digits => exact cls.contains_clamp digit

end Script

end AmountWalk
