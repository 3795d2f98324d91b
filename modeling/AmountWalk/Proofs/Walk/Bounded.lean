import AmountWalk.Proofs.Walk.Outcome

/-!
# Bounded walks agree with unbounded ones

Whether a walk has a bound makes no difference as long as it keeps to it. A walk of no more steps
than the bound comes out the same, with the same source left, and so does one whose fault comes no
later than in the move after the last step that the bound allows. Every other walk is abandoned, and
has made exactly one move more than it may have steps.

A greater bound therefore never changes an answer.
-/

namespace AmountWalk.Table

variable {σ γ : Type} [DecidableEq σ] [StateSet σ] [ChoiceSource γ]

variable {table : Table σ} {policy : Policy σ} {path : Path σ} {source rest : γ}
  {fault : Fault σ} {maxSteps number : Nat} {log : List Event}

/-! ## Walks that halt -/

theorem walkBounded_of_haltsWith (h : table.HaltsWith policy source path rest)
    (hle : path.length ≤ maxSteps) :
    table.walkBounded policy maxSteps source
      = ⟨.finished path, rest, [table.finishedEvent path]⟩ := by
  obtain ⟨s, hs⟩ := haltsWith_iff.mp h
  exact walkBounded_of_halted (progress_halted_mono hs (Nat.succ_le_succ hle))

theorem haltsWith_of_walkBounded
    (h : table.walkBounded policy maxSteps source = ⟨.finished path, rest, log⟩) :
    path.length ≤ maxSteps ∧ table.HaltsWith policy source path rest := by
  cases hp : table.progress policy (maxSteps + 1) source with
  | going =>
    obtain ⟨s, hs⟩ := abandons_of_going hp
    rw [hs] at h
    cases h
  | halted s =>
    rw [walkBounded_of_halted hp] at h
    cases h
    exact ⟨Nat.le_of_lt_succ (progress_of_halted hp).1, maxSteps + 1, walk_of_halted hp⟩
  | faulted =>
    rw [walkBounded_of_faulted hp] at h
    cases h

/-- A walk that halts too late is abandoned: had it ended by then, it would have fewer steps. -/
theorem abandons_of_haltsWith (h : table.HaltsWith policy source path rest)
    (hlt : maxSteps < path.length) : table.Abandons policy maxSteps source := by
  obtain ⟨s, hs⟩ := haltsWith_iff.mp h
  have hlater : maxSteps + 1 ≤ path.length + 1 := by omega
  cases hp : table.progress policy (maxSteps + 1) source with
  | going => exact abandons_of_going hp
  | halted t early left =>
    have hsame := progress_halted_mono hp hlater
    rw [hs] at hsame
    cases hsame
    have hfew := (progress_of_halted hp).1
    omega
  | faulted =>
    have hsame := progress_faulted_mono hp hlater
    rw [hs] at hsame
    cases hsame

/-! ## Walks that never end -/

theorem abandons_of_neverEnds (h : table.NeverEnds policy source) :
    table.Abandons policy maxSteps source := by
  obtain ⟨s, path, rest, hp⟩ := going_of_walk_eq_none (h (maxSteps + 1))
  exact abandons_of_going hp

/-! ## Walks that break the rules -/

theorem walkBounded_of_faultsAt (h : table.FaultsAt policy source number fault rest)
    (hle : number ≤ maxSteps + 1) :
    table.walkBounded policy maxSteps source = ⟨.fault fault, rest, []⟩ := by
  obtain ⟨path, hp⟩ := faulted_of_walk_eq_error h.1
  exact walkBounded_of_faulted (progress_faulted_mono hp hle)

theorem abandons_of_faultsAt (h : table.FaultsAt policy source number fault rest)
    (hlt : maxSteps + 1 < number) : table.Abandons policy maxSteps source := by
  obtain ⟨s, path, left, hp⟩ := going_of_walk_eq_none (h.2 (maxSteps + 1) hlt)
  exact abandons_of_going hp

/-! ## Agreement -/

/-- **A bounded walk agrees with the unbounded one,** for every table, every policy, every source
and every bound. -/
theorem walkBounded_agrees (table : Table σ) (policy : Policy σ) (source : γ) (maxSteps : Nat) :
    (∀ path rest, table.HaltsWith policy source path rest →
      (path.length ≤ maxSteps →
        table.walkBounded policy maxSteps source
          = ⟨.finished path, rest, [table.finishedEvent path]⟩) ∧
      (maxSteps < path.length → table.Abandons policy maxSteps source)) ∧
    (∀ path rest log, table.walkBounded policy maxSteps source = ⟨.finished path, rest, log⟩ →
      path.length ≤ maxSteps ∧ table.HaltsWith policy source path rest) ∧
    (table.NeverEnds policy source → table.Abandons policy maxSteps source) ∧
    (∀ number fault rest, table.FaultsAt policy source number fault rest →
      (number ≤ maxSteps + 1 →
        table.walkBounded policy maxSteps source = ⟨.fault fault, rest, []⟩) ∧
      (maxSteps + 1 < number → table.Abandons policy maxSteps source)) ∧
    (∀ path rest log, table.walkBounded policy maxSteps source = ⟨.finished path, rest, log⟩ →
      ∀ more ≥ maxSteps, table.walkBounded policy more source = ⟨.finished path, rest, log⟩) := by
  refine ⟨?halts, ?finished, abandons_of_neverEnds, ?faults, ?more⟩
  case halts =>
    intro path rest h
    exact ⟨walkBounded_of_haltsWith h, abandons_of_haltsWith h⟩
  case finished =>
    intro path rest log h
    exact haltsWith_of_walkBounded h
  case faults =>
    intro number fault rest h
    exact ⟨walkBounded_of_faultsAt h, abandons_of_faultsAt h⟩
  case more =>
    intro path rest log h more hmore
    obtain ⟨hle, hhalts⟩ := haltsWith_of_walkBounded h
    -- the report is not part of the hypothesis: it is the one that any halting walk makes
    have hsame := walkBounded_of_haltsWith hhalts hle
    rw [h] at hsame
    rw [hsame]
    exact walkBounded_of_haltsWith hhalts (Nat.le_trans hle hmore)

end AmountWalk.Table
