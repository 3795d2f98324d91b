import AmountWalk.Amount
import AmountWalk.Proofs.Choice.Answers

/-!
# What the policy of amounts asks for

In each state the policy of amounts flips one coin at most, and it draws one digit at most, which it
clamps. Where it flips a coin, the two sides lead to different states. So it clamps its digits
(`clamped_policy`), and each of its moves tells the coin and the digit behind it (`tells_policy`).
-/

namespace AmountWalk

namespace Draws

variable {σ : Type} {dst : σ} {cls : DigitClass} {front back : Script} {move value : Move σ}

/-- A draw never makes a move that leads elsewhere. -/
theorem not_answeredBy_emitDrawn (hmove : ∀ ch, move ≠ .emit dst ch)
    (h : (done move).AnsweredBy front value) : ¬ (emitDrawn dst cls).AnsweredBy back value := by
  intro hdrawn
  cases h
  obtain ⟨digit, -, -, heq⟩ := answeredBy_emitDrawn_iff.mp hdrawn
  exact hmove _ heq

end Draws

/-! ## The policy -/

namespace Amount

open State Draws

theorem clamped_policy : ∀ s, (policy s).Clamped
  | q0 | q1 | q7 => .flip (.done _) (clamped_emitDrawn _ _)
  | q3 => .flip (clamped_emitDrawn _ _) (.done _)
  | q4 | q5 => clamped_emitDrawn _ _
  | q2 | q6 | q8 | q9 => .done _

/-- **Each move tells the coin and the digit behind it.** -/
theorem tells_policy : ∀ s, (policy s).Tells
  | q0 | q1 | q7 => tells_coin (tells_done _) (tells_emitDrawn _ _) fun _ _ _ h =>
      not_answeredBy_emitDrawn (by simp) h
  | q3 => tells_coin (tells_emitDrawn _ _) (tells_done _) fun _ _ _ h h' =>
      not_answeredBy_emitDrawn (by simp) h' h
  | q4 | q5 => tells_emitDrawn _ _
  | q2 | q6 | q8 | q9 => tells_done _

end Amount

end AmountWalk
