import AmountWalk.Proofs.Walk.Progress

/-!
# How a walk comes out

An unbounded walk halts, never ends, or breaks the rules in one of its moves. These three outcomes
are said here through `Table.walk` alone (`HaltsWith`, `NeverEnds`, `FaultsAt`) and then tied to the
progress of the walk. A bounded walk has an outcome of its own, to be abandoned (`Abandons`).

The progress after one move more than the bound decides how a bounded walk ends:
`walkBounded_of_halted`, `walkBounded_of_faulted` and `abandons_of_going`.
-/

namespace AmountWalk.Table

variable {σ γ : Type} [DecidableEq σ] [StateSet σ] [ChoiceSource γ]

/-! ## Outcomes -/

/-- The walk halts with this path and leaves this source. -/
def HaltsWith (table : Table σ) (policy : Policy σ) (source : γ) (path : Path σ) (rest : γ) :
    Prop :=
  ∃ moves, table.walk policy moves source = some ⟨.ok path, rest, [table.finishedEvent path]⟩

/-- The walk never ends. -/
def NeverEnds (table : Table σ) (policy : Policy σ) (source : γ) : Prop :=
  ∀ moves, table.walk policy moves source = none

/-- The walk breaks the rules in the move of this number, the first being number one. -/
def FaultsAt (table : Table σ) (policy : Policy σ) (source : γ) (number : Nat)
    (fault : Fault σ) (rest : γ) : Prop :=
  table.walk policy number source = some ⟨.error fault, rest, []⟩ ∧
    ∀ moves < number, table.walk policy moves source = none

/-- From this source the walk generates this text. -/
def Generates (table : Table σ) (policy : Policy σ) (source : γ) (text : List Char) : Prop :=
  ∃ moves rest log, table.generate policy moves source = some ⟨.ok text, rest, log⟩

/-- The bounded walk is abandoned. It leaves the source as it is after one move more than the walk
may have steps. -/
def Abandons (table : Table σ) (policy : Policy σ) (maxSteps : Nat) (source : γ) : Prop :=
  ∃ s, table.walkBounded policy maxSteps source
    = ⟨.abandoned s, (table.progress policy (maxSteps + 1) source).source,
        [.walkAbandoned maxSteps (StateSet.label s)]⟩

variable {table : Table σ} {policy : Policy σ} {moves : Nat} {s : σ} {path : Path σ}
  {source rest : γ} {fault : Fault σ} {log : List Event}

/-! ## Unbounded walks -/

theorem walk_of_going (h : table.progress policy moves source = .going s path rest) :
    table.walk policy moves source = none := by
  unfold progress at h
  rw [walk, walkFrom_eq, h]
  rfl

theorem walk_of_halted (h : table.progress policy moves source = .halted s path rest) :
    table.walk policy moves source = some ⟨.ok path, rest, [table.finishedEvent path]⟩ := by
  unfold progress at h
  rw [walk, walkFrom_eq, h]
  rfl

theorem walk_of_faulted (h : table.progress policy moves source = .faulted fault path rest) :
    table.walk policy moves source = some ⟨.error fault, rest, []⟩ := by
  unfold progress at h
  rw [walk, walkFrom_eq, h]
  rfl

theorem going_of_walk_eq_none (h : table.walk policy moves source = none) :
    ∃ s path rest, table.progress policy moves source = .going s path rest := by
  cases hp : table.progress policy moves source with
  | going s path rest => exact ⟨s, path, rest, rfl⟩
  | halted => rw [walk_of_halted hp] at h; cases h
  | faulted => rw [walk_of_faulted hp] at h; cases h

/-- A walk that has ended halted or broke the rules. -/
theorem ended_of_walk_eq_some {run : Run γ (Except (Fault σ) (Path σ))}
    (h : table.walk policy moves source = some run) :
    (∃ s path, table.progress policy moves source = .halted s path run.source ∧
      run.outcome = .ok path) ∨
    ∃ fault path, table.progress policy moves source = .faulted fault path run.source ∧
      run.outcome = .error fault := by
  cases hp : table.progress policy moves source with
  | going => rw [walk_of_going hp] at h; cases h
  | halted s path => rw [walk_of_halted hp] at h; cases h; exact Or.inl ⟨s, path, rfl, rfl⟩
  | faulted fault path =>
    rw [walk_of_faulted hp] at h; cases h; exact Or.inr ⟨fault, path, rfl, rfl⟩

theorem halted_of_walk_eq_ok (h : table.walk policy moves source = some ⟨.ok path, rest, log⟩) :
    ∃ s, table.progress policy moves source = .halted s path rest := by
  rcases ended_of_walk_eq_some h with ⟨s, other, hp, hok⟩ | ⟨_, _, _, herror⟩
  · cases hok
    exact ⟨s, hp⟩
  · cases herror

theorem faulted_of_walk_eq_error
    (h : table.walk policy moves source = some ⟨.error fault, rest, log⟩) :
    ∃ path, table.progress policy moves source = .faulted fault path rest := by
  rcases ended_of_walk_eq_some h with ⟨_, _, _, hok⟩ | ⟨other, path, hp, herror⟩
  · cases hok
  · cases herror
    exact ⟨path, hp⟩

/-- **A walk that halts does so in the first move after its steps.** -/
theorem haltsWith_iff :
    table.HaltsWith policy source path rest
      ↔ ∃ s, table.progress policy (path.length + 1) source = .halted s path rest := by
  constructor
  · rintro ⟨moves, h⟩
    obtain ⟨s, hs⟩ := halted_of_walk_eq_ok h
    exact ⟨s, (progress_of_halted hs).2⟩
  · rintro ⟨s, h⟩
    exact ⟨path.length + 1, walk_of_halted h⟩

/-! ## Bounded walks -/

section Bounded

variable {maxSteps : Nat}

theorem walkBounded_eq (maxSteps : Nat) (source : γ) :
    table.walkBounded policy maxSteps source
      = let (ending, rest) := table.close policy (table.progress policy maxSteps source)
        ⟨ending, rest, table.endingLog maxSteps ending⟩ := by
  rw [walkBounded, walkBoundedFrom_eq]
  rfl

theorem walkBounded_of_halted
    (h : table.progress policy (maxSteps + 1) source = .halted s path rest) :
    table.walkBounded policy maxSteps source
      = ⟨.finished path, rest, [table.finishedEvent path]⟩ := by
  have hmove := proceeds_progress table policy maxSteps source
  rw [h] at hmove
  rw [walkBounded_eq]
  generalize table.progress policy maxSteps source = before at hmove ⊢
  cases hmove with
  | halt ha => simp only [close, ha, endingLog]
  | halted => rfl

theorem walkBounded_of_faulted
    (h : table.progress policy (maxSteps + 1) source = .faulted fault path rest) :
    table.walkBounded policy maxSteps source = ⟨.fault fault, rest, []⟩ := by
  have hmove := proceeds_progress table policy maxSteps source
  rw [h] at hmove
  rw [walkBounded_eq]
  generalize table.progress policy maxSteps source = before at hmove ⊢
  cases hmove with
  | fault ha => simp only [close, ha, endingLog]
  | faulted => rfl

/-- A walk that is still under way after one move too many is abandoned in the state before that
move. -/
theorem walkBounded_of_going
    (h : table.progress policy (maxSteps + 1) source = .going s path rest) :
    ∃ t behind left, table.progress policy maxSteps source = .going t behind left ∧
      table.walkBounded policy maxSteps source
        = ⟨.abandoned t, rest, [.walkAbandoned maxSteps (StateSet.label t)]⟩ := by
  have hmove := proceeds_progress table policy maxSteps source
  rw [h] at hmove
  rw [walkBounded_eq]
  generalize table.progress policy maxSteps source = before at hmove ⊢
  cases hmove with
  | step ha => exact ⟨_, _, _, rfl, by simp only [close, ha, endingLog]⟩

theorem abandons_of_going
    (h : table.progress policy (maxSteps + 1) source = .going s path rest) :
    table.Abandons policy maxSteps source := by
  obtain ⟨t, behind, left, _, hbounded⟩ := walkBounded_of_going h
  refine ⟨t, ?_⟩
  rw [hbounded, h]
  rfl

end Bounded

end AmountWalk.Table
