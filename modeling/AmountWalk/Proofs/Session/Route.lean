import AmountWalk.Proofs.Choice.Answers
import AmountWalk.Proofs.Session.Program
import AmountWalk.Proofs.Walk.Legal

/-!
# Routes

A route is what a walk does from a state on until it halts: its steps, together with the answers by
which its policy chose them. Every walk that halts on fitting answers has taken one
(`exists_route_of_answeredBy`).

If the policy tells its answers move by move, then a route tells all of them by its steps
(`Route.answers_unique`): a step shows the move that was made, and a halt shows that the move was to
halt.
-/

namespace AmountWalk.Table

variable {σ : Type} [DecidableEq σ] [StateSet σ]

/-- From this state a walk takes these steps and halts, its policy answered by this script. -/
inductive Route (table : Table σ) (policy : Policy σ) : σ → List (Step σ) → Script → Prop where
  | halt {s : σ} {answers : Script} {move : Move σ} (h : (policy s).AnsweredBy answers move)
      (hjudge : table.judge s move = .halt) : Route table policy s [] answers
  | step {s : σ} {answers later : Script} {move : Move σ} {step : Step σ} {steps : List (Step σ)}
      (h : (policy s).AnsweredBy answers move) (hjudge : table.judge s move = .step step)
      (hlater : Route table policy step.dst steps later) :
      Route table policy s (step :: steps) (answers ++ later)

variable {table : Table σ} {policy : Policy σ} {s : σ}

/-- **A walk that halts on fitting answers has taken a route,** from where it stood when it was
answered first. -/
theorem exists_route_of_answeredBy {moves : Nat} {path longer : Path σ} {answers : Script}
    (h : (table.walkProgram policy moves s path).AnsweredBy answers (some (.ok longer))) :
    ∃ steps, table.Route policy s steps answers ∧
      longer.steps.toList = path.steps.toList ++ steps := by
  induction moves generalizing s path answers with
  | zero => cases h
  | succ moves ih =>
    obtain ⟨front, back, move, hfront, hback, rfl⟩ := Draws.answeredBy_bind_iff.mp h
    cases hjudge : table.judge s move with
    | step step =>
      rw [hjudge] at hback
      obtain ⟨steps, hroute, hsteps⟩ := ih hback
      refine ⟨step :: steps, .step hfront hjudge hroute, ?_⟩
      rw [hsteps, Path.toList_steps_record, List.append_assoc]
      rfl
    | halt =>
      rw [hjudge] at hback
      cases hback
      rw [Script.append_empty]
      exact ⟨[], .halt hfront hjudge, (List.append_nil _).symm⟩
    | fault fault =>
      rw [hjudge] at hback
      cases hback

/-- What a policy is answered decides how a walk goes on. -/
theorem advance_of_answeredBy {answers : Script} {move : Move σ}
    (h : (policy s).AnsweredBy answers move) (later : Script) :
    table.advance policy s (answers ++ later) = (table.judge s move, later) := by
  rw [advance, h.run]

/-! ## What a route tells -/

theorem eq_halt_of_judge {move : Move σ} (h : table.judge s move = .halt) : move = .halt := by
  cases move with
  | emit dst ch =>
    rw [judge] at h
    split at h <;> cases h
  | silent dst => cases h
  | halt => rfl

/-- A step shows the move by which it was taken. -/
theorem eq_of_judge_step {move : Move σ} {step : Step σ} (h : table.judge s move = .step step) :
    move = step.emitted.elim (.silent step.dst) (.emit step.dst) := by
  cases move with
  | emit dst ch =>
    rw [judge] at h
    split at h <;> cases h
    rfl
  | silent dst =>
    cases h
    rfl
  | halt =>
    rw [judge] at h
    split at h <;> cases h

/-- **The steps of a route tell its answers,** if the policy tells them move by move. -/
theorem Route.answers_unique (htells : ∀ s, (policy s).Tells) {steps : List (Step σ)}
    {answers others : Script} (h : table.Route policy s steps answers)
    (h' : table.Route policy s steps others) : answers = others := by
  induction h generalizing others with
  | halt hmove hjudge =>
    cases h' with
    | halt hmove' hjudge' =>
      rw [eq_halt_of_judge hjudge] at hmove
      rw [eq_halt_of_judge hjudge'] at hmove'
      exact htells _ _ _ _ hmove hmove'
  | step hmove hjudge _ ih =>
    cases h' with
    | step hmove' hjudge' hlater' =>
      rw [eq_of_judge_step hjudge] at hmove
      rw [eq_of_judge_step hjudge'] at hmove'
      rw [htells _ _ _ _ hmove hmove', ih hlater']

end AmountWalk.Table
