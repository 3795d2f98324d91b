import AmountWalk.Proofs.Amount.Choices
import AmountWalk.Proofs.Amount.Safety
import AmountWalk.Proofs.Session.Route

/-!
# Routes through the automaton of amounts

The text of a route tells its steps. Where a character is emitted the table decides where it leads, so
only the silent step could be overlooked; and since it is followed by nothing, the first character of
what is left of the text shows whether it is taken (`emitted_eq_head?`).

It also tells how many steps there are (`length_eq_stepsFor`): whole dollars take one more than they
have characters.
-/

namespace AmountWalk.Amount

open State

variable {s : State} {answers others : Script}

/-! ## Steps -/

/-- A step by which fitting answers are followed is one of `Takes`. -/
theorem takes_of_answeredBy {move : Move State} {step : Step State}
    (h : (policy s).AnsweredBy answers move) (hjudge : table.judge s move = .step step) :
    Takes step := by
  have hadvance : table.advance policy s (answers ++ .empty) = (table.judge s move, .empty) :=
    Table.advance_of_answeredBy h .empty
  rw [hjudge] at hadvance
  exact takes_of_advance hadvance

theorem end_of_answeredBy {move : Move State} (h : (policy s).AnsweredBy answers move)
    (hjudge : table.judge s move = .halt) : s = q6 ∨ s = q8 := by
  have hadvance : table.advance policy s (answers ++ .empty) = (table.judge s move, .empty) :=
    Table.advance_of_answeredBy h .empty
  rw [hjudge] at hadvance
  exact end_of_advance hadvance

/-- Nothing leaves the states in which a walk halts. -/
theorem Takes.src_ne_end {step : Step State} (h : Takes step) :
    ¬ (step.src = q6 ∨ step.src = q8) := by
  cases h <;> simp

/-- **A step is told by where it starts and by what it emits.** -/
theorem step_unique {move other : Move State} {step second : Step State}
    (h : (policy s).AnsweredBy answers move) (hjudge : table.judge s move = .step step)
    (h' : (policy s).AnsweredBy others other) (hjudge' : table.judge s other = .step second)
    (hemitted : step.emitted = second.emitted) : step = second := by
  obtain ⟨hsrc, hcarries⟩ := Table.judge_eq_step hjudge
  obtain ⟨hsrc', hcarries'⟩ := Table.judge_eq_step hjudge'
  have hdst : step.dst = second.dst := by
    cases hstep : step.emitted with
    | none =>
      rw [((takes_of_answeredBy h hjudge).silent hstep).2,
        ((takes_of_answeredBy h' hjudge').silent (hemitted ▸ hstep)).2]
    | some ch =>
      obtain ⟨t, ht, hdst⟩ := hcarries ch hstep
      obtain ⟨u, hu, hdst'⟩ := hcarries' ch (hemitted ▸ hstep)
      rw [hsrc] at ht
      rw [hsrc', ht] at hu
      cases hu
      rw [← hdst, ← hdst']
  obtain ⟨src, dst, emitted⟩ := step
  obtain ⟨src', dst', emitted'⟩ := second
  cases hsrc
  cases hsrc'
  cases hdst
  cases hemitted
  rfl

/-! ## The text of a route -/

theorem eq_nil_of_route_end {steps : List (Step State)} (h : table.Route policy s steps answers)
    (hend : s = q6 ∨ s = q8) : steps = [] := by
  cases h with
  | halt => rfl
  | step hmove hjudge hlater =>
    have htakes := takes_of_answeredBy hmove hjudge
    rw [← (Table.judge_eq_step hjudge).1] at hend
    exact absurd hend htakes.src_ne_end

theorem filterMap_emitted_cons (step : Step State) (steps : List (Step State)) :
    (step :: steps).filterMap Step.emitted
      = step.emitted.toList ++ steps.filterMap Step.emitted := by
  cases h : step.emitted with
  | none => rw [List.filterMap_cons_none h]; rfl
  | some ch => rw [List.filterMap_cons_some h]; rfl

/-- **The text of a route shows what its first step emits.** A silent step leads to where a walk
halts, so behind it there is no text. -/
theorem emitted_eq_head? {move : Move State} {step : Step State} {steps : List (Step State)}
    {later : Script} (h : (policy s).AnsweredBy answers move)
    (hjudge : table.judge s move = .step step)
    (hlater : table.Route policy step.dst steps later) :
    step.emitted = ((step :: steps).filterMap Step.emitted).head? := by
  rw [filterMap_emitted_cons]
  cases hemitted : step.emitted with
  | none =>
    have hend := ((takes_of_answeredBy h hjudge).silent hemitted).2
    rw [eq_nil_of_route_end hlater (Or.inl hend)]
    rfl
  | some ch => rfl

/-- **The text of a route tells its steps.** -/
theorem steps_unique {steps seconds : List (Step State)} (h : table.Route policy s steps answers)
    (h' : table.Route policy s seconds others)
    (htext : steps.filterMap Step.emitted = seconds.filterMap Step.emitted) : steps = seconds := by
  induction h generalizing seconds others with
  | halt hmove hjudge => exact (eq_nil_of_route_end h' (end_of_answeredBy hmove hjudge)).symm
  | @step s _ _ move step steps hmove hjudge hlater ih =>
    cases h' with
    | halt hmove' hjudge' =>
      exact eq_nil_of_route_end (.step hmove hjudge hlater) (end_of_answeredBy hmove' hjudge')
    | @step _ _ _ other second rest hmove' hjudge' hlater' =>
      have hemitted : step.emitted = second.emitted := by
        rw [emitted_eq_head? hmove hjudge hlater, emitted_eq_head? hmove' hjudge' hlater', htext]
      obtain rfl := step_unique hmove hjudge hmove' hjudge' hemitted
      rw [filterMap_emitted_cons, filterMap_emitted_cons] at htext
      rw [ih hlater' (List.append_cancel_left htext)]

/-- **The text of a route tells its answers.** -/
theorem answers_unique {steps seconds : List (Step State)} (h : table.Route policy s steps answers)
    (h' : table.Route policy s seconds others)
    (htext : steps.filterMap Step.emitted = seconds.filterMap Step.emitted) : answers = others := by
  rw [← steps_unique h h' htext] at h'
  exact h.answers_unique tells_policy h'

/-! ## The number of steps -/

/-- How many steps it takes to print a text: as many as it has characters, and one more for whole
dollars. -/
def stepsFor (text : List Char) : Nat :=
  if text.head? = some '$' ∧ '.' ∉ text then text.length + 1 else text.length

theorem stepsFor_whole {text : List Char} (h : '.' ∉ text) :
    stepsFor ('$' :: text) = text.length + 2 := by
  have hdollar : '.' ∉ '$' :: text := by simp [h]
  rw [stepsFor, if_pos ⟨rfl, hdollar⟩]
  rfl

theorem stepsFor_fraction {text : List Char} (h : '.' ∈ text) :
    stepsFor ('$' :: text) = text.length + 1 := by
  rw [stepsFor, if_neg fun hwhole => hwhole.2 (List.mem_cons_of_mem _ h)]
  rfl

theorem stepsFor_cents {ch : Char} {text : List Char} (h : ch ≠ '$') :
    stepsFor (ch :: text) = text.length + 1 := by
  rw [stepsFor, if_neg fun hwhole => h (Option.some.inj hwhole.1)]
  rfl

/-- How many steps lead from a state to the end of a text. -/
def StepsLeft (text : List Char) (steps : Nat) : State → Prop
  | q0 => steps = stepsFor text
  | q1 => steps + 1 = stepsFor ('$' :: text)
  | q2 => steps = text.length ∧ '.' ∈ text
  | q3 => steps = text.length + 1 ∧ '.' ∉ text
  | q6 => steps = 0 ∧ text = []
  | _ => steps = text.length

/-- A step in front, with what it emits in front of the text. -/
theorem StepsLeft.step {step : Step State} {text : List Char} {steps : Nat} (htakes : Takes step)
    (h : StepsLeft text steps step.dst) :
    StepsLeft (step.emitted.toList ++ text) (steps + 1) step.src := by
  cases htakes with
  | dollar => exact h
  | firstCent hch =>
    show steps + 1 = stepsFor (_ :: text)
    rw [stepsFor_cents (hch.isDigit.ne (by decide)), show steps = text.length from h]
  | zero =>
    obtain ⟨hsteps, hpoint⟩ := h
    show steps + 1 + 1 = stepsFor ('$' :: '0' :: text)
    rw [stepsFor_fraction (List.mem_cons_of_mem _ hpoint), hsteps]
    rfl
  | firstDollar hch =>
    obtain ⟨hsteps, hpoint⟩ := h
    show steps + 1 + 1 = stepsFor ('$' :: _ :: text)
    rw [stepsFor_whole, hsteps]
    · rfl
    · simp [hpoint, (hch.isDigit.ne (by decide) : _ ≠ '.').symm]
  | point => exact ⟨congrArg (· + 1) h, List.mem_cons_self⟩
  | nextDollar hch =>
    obtain ⟨hsteps, hpoint⟩ := h
    refine ⟨congrArg (· + 1) hsteps, ?_⟩
    simp [hpoint, (hch.ne (by decide) : _ ≠ '.').symm]
  | whole =>
    obtain ⟨rfl, rfl⟩ := h
    exact ⟨rfl, List.not_mem_nil⟩
  | tenth hch => exact congrArg (· + 1) h
  | hundredth hch =>
    obtain ⟨rfl, rfl⟩ := h
    exact rfl
  | cent => exact congrArg (· + 1) h
  | secondCent hch => exact congrArg (· + 1) h
  | cents => exact congrArg (· + 1) h

theorem stepsLeft_of_route {steps : List (Step State)} (h : table.Route policy s steps answers) :
    StepsLeft (steps.filterMap Step.emitted) steps.length s := by
  induction h with
  | halt hmove hjudge =>
    rcases end_of_answeredBy hmove hjudge with rfl | rfl
    · exact ⟨rfl, rfl⟩
    · exact rfl
  | @step s _ _ move step steps hmove hjudge _ ih =>
    obtain ⟨rfl, _⟩ := Table.judge_eq_step hjudge
    rw [filterMap_emitted_cons]
    exact StepsLeft.step (takes_of_answeredBy hmove hjudge) ih

/-- **The text of a route tells how many steps it has.** -/
theorem length_eq_stepsFor {steps : List (Step State)}
    (h : table.Route policy q0 steps answers) :
    steps.length = stepsFor (steps.filterMap Step.emitted) :=
  stepsLeft_of_route h

end AmountWalk.Amount
