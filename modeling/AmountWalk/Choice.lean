import AmountWalk.Label

/-!
# Choices

A walk decides where to go by flipping coins and drawing digits. Where these come from is a
`ChoiceSource`: any state machine that answers both questions. What is done with them is a term of
`Draws`, a tree that branches on each answer, so that one program of choices can be run on every
source.

A source may answer with a digit outside the class that it was asked for. `Draws.drawn` clamps
such a digit into the class.
-/

namespace AmountWalk

/-- A state machine that answers with coin flips and digits. -/
class ChoiceSource (γ : Type) where
  /-- The next coin flip, `true` for heads. -/
  coin : γ → Bool × γ
  /-- The next digit, meant to be drawn from the class. -/
  digit : DigitClass → γ → UInt8 × γ

/-- A program that asks for finitely many choices and ends with a value. -/
inductive Draws (α : Type) where
  /-- End with a value. -/
  | done (value : α)
  /-- Flip a coin. -/
  | coin (next : Bool → Draws α)
  | digit (cls : DigitClass) (next : UInt8 → Draws α)

namespace Draws

variable {α γ : Type}

/-- Run the program on a source: its value, and what is left of the source. -/
def run [ChoiceSource γ] : Draws α → γ → α × γ
  | done value, source => (value, source)
  | coin next, source =>
    let (heads, source) := ChoiceSource.coin source
    (next heads).run source
  | digit cls next, source =>
    let (drawn, source) := ChoiceSource.digit cls source
    (next drawn).run source

/-- Draw a digit and clamp it into the class. -/
def drawn (cls : DigitClass) (next : UInt8 → Draws α) : Draws α :=
  digit cls fun raw => next (cls.clamp raw)

theorem run_coin [ChoiceSource γ] (next : Bool → Draws α) (source : γ) :
    (coin next).run source
      = (next (ChoiceSource.coin source).1).run (ChoiceSource.coin source).2 := rfl

theorem run_digit [ChoiceSource γ] (cls : DigitClass) (next : UInt8 → Draws α) (source : γ) :
    (digit cls next).run source
      = (next (ChoiceSource.digit cls source).1).run (ChoiceSource.digit cls source).2 := rfl

end Draws

end AmountWalk
