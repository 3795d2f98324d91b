import AmountWalk.Proofs.Amount.Filter
import AmountWalk.Proofs.Sample.Log
import AmountWalk.Proofs.Walk.Bounded

/-!
# Sampling amounts

A sampling of amounts drops nothing. Each of its walks is abandoned or prints an amount
(`endingOf_cases`), and amounts pass the filter, so each walk is counted once, as abandoned or as a
text (`length_textsAfter_add_countP`). Since no walk breaks the rules either, a sampling has two
exits only, which `collect_cases` describes with what is returned and what is reported.
-/

namespace AmountWalk.Amount

variable {γ : Type} [ChoiceSource γ]

/-! ## Walks -/

/-- **A bounded walk is abandoned or prints an amount.** -/
theorem walkBounded_cases (maxSteps : Nat) (source : γ) :
    (∃ path, (table.walkBounded policy maxSteps source).outcome = .finished path ∧
      Printed path.output) ∨
    ∃ s, (table.walkBounded policy maxSteps source).outcome = .abandoned s := by
  cases hp : table.progress policy (maxSteps + 1) source with
  | going s path rest =>
    obtain ⟨t, hbounded⟩ := Table.abandons_of_going hp
    rw [hbounded]
    exact Or.inr ⟨t, rfl⟩
  | halted s path rest =>
    obtain ⟨other, hok, hprinted⟩ := printed_of_walk (Table.walk_of_halted hp)
    cases hok
    rw [Table.walkBounded_of_halted hp]
    exact Or.inl ⟨path, rfl, hprinted⟩
  | faulted fault path rest => exact absurd hp (progress_ne_faulted (maxSteps + 1) source)

section Endings

variable (maxSteps : Nat) (source : γ)

theorem endingOf_cases (number : Nat) :
    (∃ path, table.endingOf policy maxSteps source number = .finished path ∧
      Printed path.output) ∨
    ∃ s, table.endingOf policy maxSteps source number = .abandoned s :=
  walkBounded_cases maxSteps (table.sourceAfter policy maxSteps source number)

/-- No walk of a sampling breaks the rules. -/
theorem safeFor (config : SampleConfig) (source : γ) (walks : Nat) :
    table.SafeFor policy config source walks := by
  intro number _
  rcases endingOf_cases config.maxSteps.toNat source number with ⟨path, hpath, _⟩ | ⟨s, hs⟩
  · rw [hpath]
    rfl
  · rw [hs]
    rfl

/-- **Each walk is abandoned or brings a text.** -/
theorem length_textsAfter_add_countP (walks : Nat) :
    (table.textsAfter policy maxSteps source walks).length
      + (table.endings policy maxSteps source walks).countP Ending.isAbandoned = walks := by
  induction walks with
  | zero => rfl
  | succ walks ih =>
    have hone : (table.endingOf policy maxSteps source walks).kept?.toList.length
        + [table.endingOf policy maxSteps source walks].countP Ending.isAbandoned = 1 := by
      rcases endingOf_cases maxSteps source walks with ⟨path, hpath, hprinted⟩ | ⟨s, hs⟩
      · rw [hpath, Ending.kept?, if_pos hprinted.isWellFormed]
        rfl
      · rw [hs]
        rfl
    rw [Table.textsAfter_succ, Table.endings_succ, List.length_append, List.countP_append]
    omega

/-- Nothing is dropped. -/
theorem rejectedSample_not_mem_flatMap (walks : Nat) (text : List Char) :
    Event.rejectedSample text ∉ (table.endings policy maxSteps source walks).flatMap
      (table.reports maxSteps) := by
  intro hmem
  obtain ⟨ending, hending, hreport⟩ := List.mem_flatMap.mp hmem
  obtain ⟨number, -, rfl⟩ := List.mem_map.mp hending
  obtain ⟨path, hpath, rfl, hnot⟩ := Table.rejectedSample_mem_reports_iff.mp hreport
  rcases endingOf_cases maxSteps source number with ⟨other, hother, hprinted⟩ | ⟨s, hs⟩
  · rw [hother] at hpath
    cases hpath
    rw [hprinted.isWellFormed] at hnot
    cases hnot
  · rw [hs] at hpath
    cases hpath

end Endings

/-! ## Samplings -/

/-- So many walks are enough: the sampling returns their texts, and reports their number last. -/
structure Succeeds (config : SampleConfig) (source : γ) (walks : Nat) : Prop where
  le_maxAttempts : walks ≤ config.maxAttempts.toNat
  length_texts : (table.textsAfter policy config.maxSteps.toNat source walks).length
    = config.count.toNat
  outcome : (table.collect policy config source).outcome
    = .ok (table.textsAfter policy config.maxSteps.toNat source walks)
  log : (table.collect policy config source).log
    = (table.endings policy config.maxSteps.toNat source walks).flatMap
        (table.reports config.maxSteps.toNat)
      ++ [.samplingComplete walks
          ((table.endings policy config.maxSteps.toNat source walks).countP Ending.isAbandoned)
          config.count.toNat]

/-- All walks are not enough: the sampling returns what it knows of them. -/
structure GivesUp (config : SampleConfig) (source : γ) (walks : Nat) : Prop where
  eq_maxAttempts : walks = config.maxAttempts.toNat
  length_texts : (table.textsAfter policy config.maxSteps.toNat source walks).length
    < config.count.toNat
  outcome : (table.collect policy config source).outcome
    = .error (.exhausted
        { attempts := walks
          abandoned :=
            (table.endings policy config.maxSteps.toNat source walks).countP Ending.isAbandoned
          collected := (table.textsAfter policy config.maxSteps.toNat source walks).length
          wanted := config.count.toNat })
  log : (table.collect policy config source).log
    = (table.endings policy config.maxSteps.toNat source walks).flatMap
        (table.reports config.maxSteps.toNat)

/-- **A sampling of amounts succeeds or gives up,** since no walk ends it with a fault. -/
theorem succeeds_or_givesUp {config : SampleConfig}
    (hfits : config.count.toNat * 24 ≤ Nat.pow 2 63 - 1) (source : γ) :
    ∃ walks, Succeeds config source walks ∨ GivesUp config source walks := by
  have hsafe : ∀ walks, table.SafeFor policy config source walks := safeFor config source
  by_cases hsome : ∃ walks ≤ config.maxAttempts.toNat,
      table.EnoughAfter policy config source walks
  · obtain ⟨walks, hle, henough⟩ := hsome
    exact ⟨walks, Or.inl
      { le_maxAttempts := hle
        length_texts := henough.length_eq
        outcome := (Table.collect_of_enoughAfter hfits hle henough (hsafe walks)).1
        log := Table.log_collect_of_enoughAfter hfits hle henough (hsafe walks) }⟩
  · have hfew := Table.few_of_not_exists_enoughAfter hsome
    exact ⟨config.maxAttempts.toNat, Or.inr
      { eq_maxAttempts := rfl
        length_texts := hfew _ (Nat.le_refl _)
        outcome := (Table.collect_of_few hfits hfew (hsafe _)).1
        log := Table.log_collect_of_few hfits hfew (hsafe _) }⟩

end AmountWalk.Amount
