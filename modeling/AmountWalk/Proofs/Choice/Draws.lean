import AmountWalk.Policy

/-!
# Programs of choices one after the other

A program of choices may go on with another one that depends on its value (`Draws.bind`). Running the
two together is running one after the other, on every source.

Two things can be said of a program without looking at its values. It may look at the digits that it
draws only after they were clamped (`Draws.Clamped`), and then it makes no difference whether a source
clamps them before. And a source that is seen through a function answers as what it is seen as
(`IsView`), so a program cannot tell the two apart.
-/

namespace AmountWalk

variable {α β γ δ : Type}

namespace Draws

/-! ## Sequences -/

/-- Go on with a program that depends on the value. -/
def bind : Draws α → (α → Draws β) → Draws β
  | done value, later => later value
  | coin next, later => coin fun heads => (next heads).bind later
  | digit cls next, later => digit cls fun raw => (next raw).bind later

/-- **A sequence runs one program after the other.** -/
theorem run_bind [ChoiceSource γ] (program : Draws α) (later : α → Draws β) (source : γ) :
    (program.bind later).run source
      = (later (program.run source).1).run (program.run source).2 := by
  induction program generalizing source with
  | done value => rfl
  | coin next ih => exact ih _ _
  | digit cls next ih => exact ih _ _

/-- Make something of the value. -/
def map (f : α → β) (program : Draws α) : Draws β :=
  program.bind fun value => done (f value)

theorem run_map [ChoiceSource γ] (f : α → β) (program : Draws α) (source : γ) :
    (program.map f).run source = (f (program.run source).1, (program.run source).2) :=
  run_bind _ _ _

/-! ## Programs that clamp -/

/-- The program looks at a digit only after it was clamped into the class for which it was drawn. -/
inductive Clamped : Draws α → Prop where
  | done (value : α) : Clamped (.done value)
  | coin {next : Bool → Draws α} (h : ∀ heads, Clamped (next heads)) : Clamped (.coin next)
  | drawn {cls : DigitClass} {next : UInt8 → Draws α} (h : ∀ digit, Clamped (next digit)) :
      Clamped (.drawn cls next)

theorem Clamped.bind {program : Draws α} {later : α → Draws β} (h : program.Clamped)
    (hlater : ∀ value, (later value).Clamped) : (program.bind later).Clamped := by
  induction h with
  | done value => exact hlater value
  | coin _ ih => exact .coin ih
  | @drawn cls next _ ih =>
    show (Draws.drawn cls fun digit => (next digit).bind later).Clamped
    exact .drawn ih

theorem Clamped.flip {heads tails : Draws α} (hheads : heads.Clamped) (htails : tails.Clamped) :
    (Draws.coin fun side => if side then heads else tails).Clamped := by
  refine .coin fun side => ?_
  cases side with
  | true => exact hheads
  | false => exact htails

theorem Clamped.map {program : Draws α} (h : program.Clamped) (f : α → β) :
    (program.map f).Clamped :=
  h.bind fun _ => .done _

theorem clamped_emitDrawn {σ : Type} (dst : σ) (cls : DigitClass) : (emitDrawn dst cls).Clamped :=
  .drawn fun _ => .done _

end Draws

/-! ## Sources seen through a function -/

/-- A source answers as what it is seen as, and what is left of it is seen as what is left of that. -/
structure IsView [ChoiceSource γ] [ChoiceSource δ] (view : γ → δ) : Prop where
  coin : ∀ source, ChoiceSource.coin (view source)
    = ((ChoiceSource.coin source).1, view (ChoiceSource.coin source).2)
  digit : ∀ cls source, ChoiceSource.digit cls (view source)
    = ((ChoiceSource.digit cls source).1, view (ChoiceSource.digit cls source).2)

/-- **No program can tell a source from what it is seen as.** -/
theorem IsView.run [ChoiceSource γ] [ChoiceSource δ] {view : γ → δ} (h : IsView view)
    (program : Draws α) (source : γ) :
    program.run (view source) = ((program.run source).1, view (program.run source).2) := by
  induction program generalizing source with
  | done value => rfl
  | coin next ih =>
    rw [Draws.run_coin, Draws.run_coin, h.coin]
    exact ih _ _
  | digit cls next ih =>
    rw [Draws.run_digit, Draws.run_digit, h.digit]
    exact ih _ _

end AmountWalk
