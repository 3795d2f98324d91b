import AmountWalk.Sample

/-!
# What a walk asks of a table

A walk uses a table for two things only: it begins in the start state, and it looks up the transition
that leaves a state on a character. Two tables that agree on both (`SameLookups`) are one table to
every walk and every sampling: whatever the policy and the source, they come to the same outcome,
leave the same source and report the same.

The lemmas follow the definitions, from the judgement of one move to a whole sampling.
-/

namespace AmountWalk.Table

variable {σ γ : Type} [DecidableEq σ]

/-- Two tables with the same start that look up the same transition for every character in every
state. -/
structure SameLookups (table other : Table σ) : Prop where
  start : table.start = other.start
  lookup : ∀ s ch, table.transitionOn s ch = other.transitionOn s ch

namespace SameLookups

variable [StateSet σ] {table other : Table σ}

/-! ## One move -/

theorem judge_eq (h : SameLookups table other) (s : σ) (move : Move σ) :
    table.judge s move = other.judge s move := by
  cases move with
  | emit dst ch => simp only [judge, h.lookup]
  | silent dst => rfl
  | halt => rfl

variable [ChoiceSource γ]

theorem advance_eq (h : SameLookups table other) (policy : Policy σ) (s : σ) (source : γ) :
    table.advance policy s source = other.advance policy s source := by
  simp only [advance, h.judge_eq]

/-! ## Walks -/

theorem finishedEvent_eq (h : SameLookups table other) (path : Path σ) :
    table.finishedEvent path = other.finishedEvent path := by
  simp only [finishedEvent, h.start]

theorem walkFrom_eq (h : SameLookups table other) (policy : Policy σ) (moves : Nat) (s : σ)
    (path : Path σ) (source : γ) :
    table.walkFrom policy moves s path source = other.walkFrom policy moves s path source := by
  induction moves generalizing s path source with
  | zero => rfl
  | succ moves ih => simp only [walkFrom, h.advance_eq, ih]

theorem walk_eq (h : SameLookups table other) (policy : Policy σ) (moves : Nat) (source : γ) :
    table.walk policy moves source = other.walk policy moves source := by
  simp only [walk, h.start, h.walkFrom_eq, h.finishedEvent_eq]

theorem walkBoundedFrom_eq (h : SameLookups table other) (policy : Policy σ) (steps : Nat) (s : σ)
    (path : Path σ) (source : γ) :
    table.walkBoundedFrom policy steps s path source
      = other.walkBoundedFrom policy steps s path source := by
  induction steps generalizing s path source with
  | zero => rw [walkBoundedFrom, h.advance_eq, walkBoundedFrom]
  | succ steps ih =>
    rw [walkBoundedFrom, h.advance_eq, walkBoundedFrom]
    simp only [ih]

theorem endingLog_eq (h : SameLookups table other) (maxSteps : Nat) (ending : Ending σ) :
    table.endingLog maxSteps ending = other.endingLog maxSteps ending := by
  cases ending with
  | finished path => simp only [endingLog, h.finishedEvent_eq]
  | abandoned s => rfl
  | fault fault => rfl

theorem walkBounded_eq (h : SameLookups table other) (policy : Policy σ) (maxSteps : Nat)
    (source : γ) :
    table.walkBounded policy maxSteps source = other.walkBounded policy maxSteps source := by
  simp only [walkBounded, h.start, h.walkBoundedFrom_eq, h.endingLog_eq]

/-! ## Samplings -/

theorem collectFrom_eq (h : SameLookups table other) (policy : Policy σ) (config : SampleConfig)
    (attempts : Nat) (tally : Tally) (source : γ) :
    table.collectFrom policy config attempts tally source
      = other.collectFrom policy config attempts tally source := by
  induction attempts generalizing tally source with
  | zero => simp only [collectFrom]
  | succ attempts ih => simp only [collectFrom, h.walkBounded_eq, ih]

theorem collect_eq (h : SameLookups table other) (policy : Policy σ) (config : SampleConfig)
    (source : γ) : table.collect policy config source = other.collect policy config source := by
  simp only [collect, h.collectFrom_eq]

end SameLookups

end AmountWalk.Table
