import AmountWalk.Proofs.Walk.Progress

/-!
# Legal paths

What a walk records is legal at every moment, for any table and any policy: each step starts where
the one before it ended, the first one in the start state, and every character was emitted along the
first transition that reads it. A walk that halts does so in an accepting state.

The rules are those of `Table.judge`; the rest is induction over the moves.
-/

namespace AmountWalk

variable {σ γ : Type}

/-- The steps lead from one state to another, each starting where the one before it ended. -/
def Leads : σ → List (Step σ) → σ → Prop
  | s, [], t => s = t
  | s, step :: rest, t => step.src = s ∧ Leads step.dst rest t

/-- Steps are prolonged by a step that starts where they end. -/
theorem Leads.concat : ∀ {s : σ} {steps : List (Step σ)} {step : Step σ},
    Leads s steps step.src → Leads s (steps ++ [step]) step.dst
  | _, [], _, h => ⟨h.symm, rfl⟩
  | _, _ :: _, _, h => ⟨h.1, h.2.concat⟩

/-- The last of the steps ends where they lead. -/
theorem Leads.dst_last : ∀ {s t : σ} {front : List (Step σ)} {last : Step σ},
    Leads s (front ++ [last]) t → last.dst = t
  | _, _, [], _, h => h.2
  | _, _, _ :: _, _, h => h.2.dst_last

variable [DecidableEq σ]

/-- A step that emits does so along the first transition that reads its character. -/
def Table.Carries (table : Table σ) (step : Step σ) : Prop :=
  ∀ ch, step.emitted = some ch →
    ∃ t, table.transitionOn step.src ch = some t ∧ t.dst = step.dst

/-- The steps lead from the start to the state along the table. -/
structure Legal (table : Table σ) (steps : List (Step σ)) (s : σ) : Prop where
  /-- They hang together. -/
  leads : Leads table.start steps s
  /-- Each keeps to the table. -/
  carried : ∀ step ∈ steps, table.Carries step

theorem Legal.concat {table : Table σ} {steps : List (Step σ)} {s : σ} {step : Step σ}
    (h : Legal table steps s) (hsrc : step.src = s) (hcarries : table.Carries step) :
    Legal table (steps ++ [step]) step.dst where
  leads := by
    subst hsrc
    exact h.leads.concat
  carried := by
    intro other hmem
    rcases List.mem_append.mp hmem with hmem | hmem
    · exact h.carried other hmem
    · rw [List.mem_singleton.mp hmem]
      exact hcarries

namespace Table

variable [StateSet σ]

/-! ## What a judgement says -/

section Judge

variable {table : Table σ} {s : σ} {move : Move σ}

theorem judge_emit {dst : σ} {ch : Char} {t : Transition σ} (h : table.transitionOn s ch = some t)
    (hdst : t.dst = dst) : table.judge s (.emit dst ch) = .step ⟨s, dst, some ch⟩ := by
  rw [judge, if_pos]
  simp [h, hdst]

/-- A step is only allowed out of the state and along the table. -/
theorem judge_eq_step {step : Step σ} (h : table.judge s move = .step step) :
    step.src = s ∧ table.Carries step := by
  cases move with
  | emit dst ch =>
    rw [judge] at h
    split at h
    · next hedge =>
      cases h
      obtain ⟨t, hon, hdst⟩ := Option.any_eq_true _ _ |>.mp hedge
      refine ⟨rfl, fun other hother => ?_⟩
      cases hother
      exact ⟨t, hon, by simpa using hdst⟩
    · cases h
  | silent dst =>
    cases h
    exact ⟨rfl, fun ch hch => by cases hch⟩
  | halt =>
    rw [judge] at h
    split at h <;> cases h

/-- A walk may only halt in an accepting state. -/
theorem judge_eq_halt (h : table.judge s move = .halt) : StateSet.accepting s = true := by
  cases move with
  | emit dst ch =>
    rw [judge] at h
    split at h <;> cases h
  | silent dst => cases h
  | halt =>
    rw [judge] at h
    split at h
    · next haccepting => exact haccepting
    · cases h

end Judge

/-! ## Every walk is legal -/

variable [ChoiceSource γ] {table : Table σ} {policy : Policy σ}

/-- What is legal about a walk under way, and about one that has ended. -/
def LegalProgress (table : Table σ) : Progress σ γ → Prop
  | .going s path _ => Legal table path.steps.toList s
  | .halted s path _ => Legal table path.steps.toList s ∧ StateSet.accepting s = true
  | .faulted _ path _ => ∃ s, Legal table path.steps.toList s

theorem legalProgress_of_proceeds {before after : Progress σ γ}
    (hmove : Proceeds table policy before after) (h : table.LegalProgress before) :
    table.LegalProgress after := by
  cases hmove with
  | step ha =>
    obtain ⟨hsrc, hcarries⟩ := judge_eq_step (congrArg Prod.fst ha)
    show Legal table (Path.record _ _).steps.toList _
    rw [Path.toList_steps_record]
    exact h.concat hsrc hcarries
  | halt ha => exact ⟨h, judge_eq_halt (congrArg Prod.fst ha)⟩
  | fault _ => exact ⟨_, h⟩
  | halted => exact h
  | faulted => exact h

/-- **Every walk is legal at every moment.** -/
theorem legalProgress_progress (moves : Nat) (source : γ) :
    table.LegalProgress (table.progress policy moves source) :=
  progress_invariant table.LegalProgress ⟨rfl, by simp⟩ (fun _ _ => legalProgress_of_proceeds)
    moves

end Table

end AmountWalk
