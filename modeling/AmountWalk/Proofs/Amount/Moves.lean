import AmountWalk.Amount
import AmountWalk.Proofs.Digit
import AmountWalk.Proofs.Table.Determinism
import AmountWalk.Proofs.Walk.Legal
import AmountWalk.Proofs.Walk.Outcome

/-!
# The moves of a walk through the automaton of amounts

The table, the policy and the clamping of digits are written apart from each other. Here they are
brought together once: `advance_cases` says all that a walk can do in each state, whatever the
source answers. It takes a step of `Takes`, or it halts in `q6` or `q8`; it never breaks the rules.
-/

namespace AmountWalk.Amount

open State

variable {γ : Type} [ChoiceSource γ]

/-- The steps that a walk can take. -/
inductive Takes : Step State → Prop where
  /-- Dollars are announced. -/
  | dollar : Takes ⟨q0, q1, some '$'⟩
  /-- The first digit of cents. -/
  | firstCent {ch : Char} (h : IsLeading ch) : Takes ⟨q0, q7, some ch⟩
  /-- Less than a dollar. -/
  | zero : Takes ⟨q1, q2, some '0'⟩
  /-- The first digit of whole dollars. -/
  | firstDollar {ch : Char} (h : IsLeading ch) : Takes ⟨q1, q3, some ch⟩
  /-- The point after `$0`. -/
  | point : Takes ⟨q2, q4, some '.'⟩
  /-- One more digit of whole dollars. -/
  | nextDollar {ch : Char} (h : IsDigit ch) : Takes ⟨q3, q3, some ch⟩
  /-- Whole dollars are left as they are. -/
  | whole : Takes ⟨q3, q6, none⟩
  /-- The first digit of the fraction. -/
  | tenth {ch : Char} (h : IsDigit ch) : Takes ⟨q4, q5, some ch⟩
  /-- The second digit of the fraction. -/
  | hundredth {ch : Char} (h : IsDigit ch) : Takes ⟨q5, q6, some ch⟩
  /-- One digit of cents was enough. -/
  | cent : Takes ⟨q7, q8, some 'c'⟩
  /-- The second digit of cents. -/
  | secondCent {ch : Char} (h : IsDigit ch) : Takes ⟨q7, q9, some ch⟩
  /-- Two digits of cents are always enough. -/
  | cents : Takes ⟨q9, q8, some 'c'⟩

/-! ## Moves along an edge -/

/-- The table finds each of its transitions by any character that it reads. -/
theorem transitionOn_of_mem {t : Transition State} {ch : Char} (hmem : t ∈ transitions)
    (hreads : t.label.reads ch = true) : table.transitionOn t.src ch = some t := by
  refine (Draft.transitionOn_eq_some_iff build_transitions).mpr ⟨hmem, ?_⟩
  simp [Transition.accepts, hreads]

/-- A move along an edge of the table is taken. -/
theorem advance_of_emit (edge : Transition State) {ch : Char} {source rest : γ}
    (hmem : edge ∈ transitions) (hreads : edge.label.reads ch = true)
    (hmove : (policy edge.src).run source = (.emit edge.dst ch, rest)) :
    table.advance policy edge.src source = (.step ⟨edge.src, edge.dst, some ch⟩, rest) := by
  unfold Table.advance
  rw [hmove]
  show (table.judge edge.src (.emit edge.dst ch), rest) = _
  rw [Table.judge_emit (transitionOn_of_mem hmem hreads) rfl]

/-- A digit that is drawn for an edge is one that the edge reads. -/
theorem advance_of_draw (s dst : State) (cls : DigitClass) {source between : γ}
    (hmem : ⟨s, dst, .digits cls⟩ ∈ transitions)
    (hmove : (policy s).run source = (Draws.emitDrawn dst cls).run between) :
    ∃ ch rest, cls.reads ch = true ∧
      table.advance policy s source = (.step ⟨s, dst, some ch⟩, rest) := by
  have hreads := cls.reads_digitChar_clamp (ChoiceSource.digit cls between).1
  rw [Draws.run_emitDrawn] at hmove
  exact ⟨_, _, hreads, advance_of_emit ⟨s, dst, .digits cls⟩ hmem hreads hmove⟩

/-- A coin falls on one of its sides, and the program goes on with what is left. -/
theorem exists_run_coin {α : Type} (next : Bool → Draws α) (source : γ) :
    ∃ heads rest, (Draws.coin next).run source = (next heads).run rest :=
  ⟨_, _, Draws.run_coin next source⟩

/-! ## All moves -/

/-- **What a walk can do,** whatever the source answers. -/
theorem advance_cases (s : State) (source : γ) :
    (∃ step rest, Takes step ∧ step.src = s ∧
      table.advance policy s source = (.step step, rest)) ∨
    ((s = q6 ∨ s = q8) ∧ table.advance policy s source = (.halt, source)) := by
  cases s with
  | q0 =>
    obtain ⟨heads, rest, hrun⟩ := exists_run_coin _ source
    cases heads with
    | true =>
      exact Or.inl ⟨_, rest, .dollar, rfl,
        advance_of_emit ⟨q0, q1, .literal '$'⟩ (by decide) rfl hrun⟩
    | false =>
      obtain ⟨ch, left, hreads, hadvance⟩ := advance_of_draw q0 q7 .nonZero (by decide) hrun
      exact Or.inl ⟨_, left, .firstCent (DigitClass.reads_nonZero_iff.mp hreads), rfl, hadvance⟩
  | q1 =>
    obtain ⟨heads, rest, hrun⟩ := exists_run_coin _ source
    cases heads with
    | true =>
      exact Or.inl ⟨_, rest, .zero, rfl,
        advance_of_emit ⟨q1, q2, .literal '0'⟩ (by decide) rfl hrun⟩
    | false =>
      obtain ⟨ch, left, hreads, hadvance⟩ := advance_of_draw q1 q3 .nonZero (by decide) hrun
      exact Or.inl ⟨_, left, .firstDollar (DigitClass.reads_nonZero_iff.mp hreads), rfl, hadvance⟩
  | q2 =>
    exact Or.inl ⟨_, source, .point, rfl,
      advance_of_emit ⟨q2, q4, .literal '.'⟩ (by decide) rfl rfl⟩
  | q3 =>
    obtain ⟨heads, rest, hrun⟩ := exists_run_coin _ source
    cases heads with
    | true =>
      obtain ⟨ch, left, hreads, hadvance⟩ := advance_of_draw q3 q3 .any (by decide) hrun
      exact Or.inl ⟨_, left, .nextDollar (DigitClass.reads_any_iff.mp hreads), rfl, hadvance⟩
    | false =>
      refine Or.inl ⟨_, rest, .whole, rfl, ?_⟩
      unfold Table.advance
      rw [show (policy q3).run source = (.silent q6, rest) from hrun]
      rfl
  | q4 =>
    have hrun : (policy q4).run source = (Draws.emitDrawn q5 .any).run source := rfl
    obtain ⟨ch, left, hreads, hadvance⟩ := advance_of_draw q4 q5 .any (by decide) hrun
    exact Or.inl ⟨_, left, .tenth (DigitClass.reads_any_iff.mp hreads), rfl, hadvance⟩
  | q5 =>
    have hrun : (policy q5).run source = (Draws.emitDrawn q6 .any).run source := rfl
    obtain ⟨ch, left, hreads, hadvance⟩ := advance_of_draw q5 q6 .any (by decide) hrun
    exact Or.inl ⟨_, left, .hundredth (DigitClass.reads_any_iff.mp hreads), rfl, hadvance⟩
  | q6 => exact Or.inr ⟨Or.inl rfl, rfl⟩
  | q7 =>
    obtain ⟨heads, rest, hrun⟩ := exists_run_coin _ source
    cases heads with
    | true =>
      exact Or.inl ⟨_, rest, .cent, rfl,
        advance_of_emit ⟨q7, q8, .literal 'c'⟩ (by decide) rfl hrun⟩
    | false =>
      obtain ⟨ch, left, hreads, hadvance⟩ := advance_of_draw q7 q9 .any (by decide) hrun
      exact Or.inl ⟨_, left, .secondCent (DigitClass.reads_any_iff.mp hreads), rfl, hadvance⟩
  | q8 => exact Or.inr ⟨Or.inr rfl, rfl⟩
  | q9 =>
    exact Or.inl ⟨_, source, .cents, rfl,
      advance_of_emit ⟨q9, q8, .literal 'c'⟩ (by decide) rfl rfl⟩

section Inversion

variable {s : State} {source rest : γ}

/-- A step that is taken is one of `Takes`. -/
theorem takes_of_advance {step : Step State}
    (h : table.advance policy s source = (.step step, rest)) : Takes step := by
  rcases advance_cases s source with ⟨other, _, htakes, _, hother⟩ | ⟨_, hhalt⟩
  · rw [h] at hother
    cases hother
    exact htakes
  · rw [h] at hhalt
    cases hhalt

/-- A walk halts in `q6` and `q8` only. -/
theorem end_of_advance (h : table.advance policy s source = (.halt, rest)) :
    s = q6 ∨ s = q8 := by
  rcases advance_cases s source with ⟨_, _, _, _, hstep⟩ | ⟨hend, _⟩
  · rw [h] at hstep
    cases hstep
  · exact hend

/-- No move breaks the rules. -/
theorem advance_ne_fault {fault : Fault State} :
    table.advance policy s source ≠ (.fault fault, rest) := by
  intro h
  rcases advance_cases s source with ⟨_, _, _, _, hstep⟩ | ⟨_, hhalt⟩
  · rw [h] at hstep
    cases hstep
  · rw [h] at hhalt
    cases hhalt

end Inversion

/-! ## No walk breaks the rules -/

theorem progress_ne_faulted {fault : Fault State} {path : Path State} {rest : γ} (moves : Nat)
    (source : γ) : table.progress policy moves source ≠ .faulted fault path rest := by
  refine Table.progress_invariant (fun progress => progress ≠ .faulted fault path rest) ?_ ?_ moves
  · intro hstart
    cases hstart
  · intro before after hmove hbefore hafter
    subst hafter
    cases hmove with
    | fault ha => exact advance_ne_fault ha
    | faulted => exact hbefore rfl

/-- A walk that has ended halted. -/
theorem halted_of_walk {moves : Nat} {source : γ} {run : Run γ (Except (Fault State) (Path State))}
    (h : table.walk policy moves source = some run) :
    ∃ s path, table.progress policy moves source = .halted s path run.source ∧
      run.outcome = .ok path := by
  rcases Table.ended_of_walk_eq_some h with hhalted | ⟨fault, path, hp, _⟩
  · exact hhalted
  · exact absurd hp (progress_ne_faulted moves source)

end AmountWalk.Amount
