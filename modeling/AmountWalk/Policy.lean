import AmountWalk.Choice

/-!
# Policies

A policy says what a walk does next in each state. It is total: for every state it gives a program of
choices that ends in a `Move`.

`Plan` is the policy of one state written as a finite tree of coin flips, the form in which policies
of declared states are given.
-/

namespace AmountWalk

/-- What a walk does next. -/
inductive Move (σ : Type) where
  /-- Append the character and enter the state. -/
  | emit (dst : σ) (ch : Char)
  /-- Enter the state without appending anything. -/
  | silent (dst : σ)
  /-- Stop in the current state. -/
  | halt
  deriving DecidableEq

/-- What to do next, for every state. -/
abbrev Policy (σ : Type) := σ → Draws (Move σ)

/-- Draw a digit of the class and emit it. A digit outside the class is clamped into it, so the
character is always one that the class reads. -/
def Draws.emitDrawn {σ : Type} (dst : σ) (cls : DigitClass) : Draws (Move σ) :=
  drawn cls fun digit => done (.emit dst (digitChar digit))

/-! ## Plans -/

/-- A finite tree of coin flips with moves at its leaves. -/
inductive Plan (σ : Type) where
  /-- Stop. -/
  | halt
  /-- Append the character and enter the state. -/
  | emit (dst : σ) (ch : Char)
  /-- Enter the state. -/
  | silent (dst : σ)
  /-- Append a digit drawn from the class and enter the state. -/
  | draw (dst : σ) (cls : DigitClass)
  /-- Flip a coin and follow one of two plans. -/
  | coin (heads tails : Plan σ)

/-- The program of choices that a plan stands for. -/
def Plan.draws {σ : Type} : Plan σ → Draws (Move σ)
  | halt => .done .halt
  | emit dst ch => .done (.emit dst ch)
  | silent dst => .done (.silent dst)
  | draw dst cls => .emitDrawn dst cls
  | coin onHeads onTails =>
    .coin fun heads => if heads then onHeads.draws else onTails.draws

end AmountWalk
