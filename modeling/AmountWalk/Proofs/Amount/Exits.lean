import AmountWalk.Proofs.Amount.Sampling
import AmountWalk.Proofs.Choice.Observed
import AmountWalk.Proofs.Sample.InTurn

/-!
# How a sampling of amounts comes out

Whatever the source answers and whatever the configuration asks for, a sampling of amounts returns the
texts or reports that it has used up its walks (`texts_or_exhausted`). Each walk brings one text at
most, so fewer walks than texts are never enough. All numbers that are kept on the way fit into a word
of the machine: they count walks, or texts, or steps, and of none of these there are more than the
configuration allows.

The texts themselves are those of the walks that halt, in the order of the walks: nothing that halts is
dropped (`textsAfter_eq_completed`). So how many walks halt decides between the two exits
(`collect_outcome_cases`).

One thing comes before all walks. Room for all the texts is reserved at the start, so a configuration
that asks for more texts than the address space can hold is refused, even if it allows no walks.
-/

namespace AmountWalk

variable {γ : Type} [ChoiceSource γ]

/-- The text of a walk that halted. -/
def Ending.output? {σ : Type} : Ending σ → Option (List Char)
  | .finished path => some path.output
  | .abandoned _ | .fault _ => none

/-- More walks end as the first of them do. -/
theorem Table.prefix_endings {σ : Type} [DecidableEq σ] [StateSet σ] (table : Table σ)
    (policy : Policy σ) (maxSteps : Nat) (source : γ) {walks more : Nat} (hle : walks ≤ more) :
    table.endings policy maxSteps source walks <+: table.endings policy maxSteps source more := by
  induction hle with
  | refl => exact List.prefix_rfl
  | @step more _ ih =>
    rw [endings_succ]
    exact ih.trans (List.prefix_append _ _)

namespace Amount

/-! ## The two exits -/

theorem fits_iff {config : SampleConfig} :
    config.fits = true ↔ config.count.toNat * 24 ≤ Nat.pow 2 63 - 1 :=
  decide_eq_true_iff

/-- The sampling used up its walks. -/
def GaveUp (config : SampleConfig) (source : γ) : Prop :=
  ∃ e, (table.collect policy config source).outcome = .error (.exhausted e) ∧
    e.attempts = config.maxAttempts.toNat

theorem GivesUp.gaveUp {config : SampleConfig} {source : γ} {walks : Nat}
    (h : GivesUp config source walks) : GaveUp config source :=
  ⟨_, h.outcome, h.eq_maxAttempts⟩

/-- The sampling returned as many texts as were asked for. -/
def Returned (config : SampleConfig) (source : γ) : Prop :=
  ∃ texts, (table.collect policy config source).outcome = .ok texts ∧
    texts.length = config.count.toNat

theorem Succeeds.returned {config : SampleConfig} {source : γ} {walks : Nat}
    (h : Succeeds config source walks) : Returned config source :=
  ⟨_, h.outcome, h.length_texts⟩

/-- Fewer walks than texts are never enough. -/
theorem Succeeds.count_le {config : SampleConfig} {source : γ} {walks : Nat}
    (h : Succeeds config source walks) : config.count.toNat ≤ config.maxAttempts.toNat := by
  have htexts : (table.textsAfter policy config.maxSteps.toNat source walks).length ≤ walks :=
    Table.length_textsAfter_le walks
  rw [h.length_texts] at htexts
  exact Nat.le_trans htexts h.le_maxAttempts

/-- No counter of a sampling overflows. Its tallies are these, by `Table.collect_eq`. -/
theorem tallyAfter_lt_size {config : SampleConfig} {source : γ} {walks : Nat}
    (hwalks : walks ≤ config.maxAttempts.toNat) :
    (table.tallyAfter policy config.maxSteps.toNat source walks).attempts < UInt64.size ∧
      (table.tallyAfter policy config.maxSteps.toNat source walks).abandoned < UInt64.size ∧
      (table.tallyAfter policy config.maxSteps.toNat source walks).texts.size < UInt64.size := by
  have hword := config.maxAttempts.toNat_lt_size
  have htexts : (table.textsAfter policy config.maxSteps.toNat source walks).length ≤ walks :=
    Table.length_textsAfter_le walks
  have habandoned := List.countP_le_length (p := Ending.isAbandoned)
    (l := table.endings policy config.maxSteps.toNat source walks)
  rw [Table.length_endings] at habandoned
  rw [Table.attempts_tallyAfter, Table.abandoned_tallyAfter, Table.size_texts_tallyAfter]
  omega

/-- **A sampling of amounts returns all the texts or has used up its walks,** if there is room for
the texts. It has used up its walks whenever they are fewer than the texts. On the way no count of
walks or texts overflows, and neither does the number of steps of a walk. Without the room nothing is
done at all. -/
theorem texts_or_exhausted (config : SampleConfig) (source : γ) :
    (config.fits = true → Returned config source ∨ GaveUp config source) ∧
    (config.fits = true → config.maxAttempts < config.count → GaveUp config source) ∧
    (∀ walks ≤ config.maxAttempts.toNat,
      (table.tallyAfter policy config.maxSteps.toNat source walks).attempts < UInt64.size ∧
        (table.tallyAfter policy config.maxSteps.toNat source walks).abandoned < UInt64.size ∧
        (table.tallyAfter policy config.maxSteps.toNat source walks).texts.size < UInt64.size) ∧
    (∀ moves ≤ config.maxSteps.toNat, ∀ (left rest : γ) (s : State) (path : Path State),
      table.progress policy moves left = .going s path rest → path.length < UInt64.size) ∧
    (config.fits = false →
      table.collect policy config source = ⟨.error .capacityOverflow, source, []⟩) := by
  refine ⟨fun hfits => ?_, fun hfits hlt => ?_, fun walks hwalks => tallyAfter_lt_size hwalks,
    fun moves hmoves left rest s path hp => ?_, fun hfits => ?_⟩
  · obtain ⟨walks, h | h⟩ := succeeds_or_givesUp (fits_iff.mp hfits) source
    · exact Or.inl h.returned
    · exact Or.inr h.gaveUp
  · obtain ⟨walks, h | h⟩ := succeeds_or_givesUp (fits_iff.mp hfits) source
    · exact absurd h.count_le (Nat.not_le.mpr (UInt64.lt_iff_toNat_lt.mp hlt))
    · exact h.gaveUp
  · rw [Table.length_of_going hp]
    exact Nat.lt_of_le_of_lt hmoves config.maxSteps.toNat_lt_size
  · rw [Table.collect, hfits]
    rfl

/-- More texts than there is room for, and no walks to find them. -/
def hugeCount : SampleConfig := ⟨9223372036854775808, 0, 0⟩

/-- **Not every sampling comes out so:** for want of room this one neither returns texts nor reports
that its walks, none, are used up. -/
theorem hugeCount_refused :
    (table.collect policy hugeCount Script.empty).outcome = .error .capacityOverflow ∧
      ¬ (Returned hugeCount Script.empty ∨ GaveUp hugeCount Script.empty) := by
  have hrefused : (table.collect policy hugeCount Script.empty).outcome
      = .error .capacityOverflow := by
    have hfits : hugeCount.fits = false := by decide
    rw [Table.collect, hfits]
    rfl
  refine ⟨hrefused, ?_⟩
  rintro (⟨texts, hok, -⟩ | ⟨e, hexhausted, -⟩)
  · rw [hrefused] at hok
    cases hok
  · rw [hrefused] at hexhausted
    cases hexhausted

/-! ## Walks that halt -/

/-- The texts of those that halt of the first so many walks, in order. -/
def completed (maxSteps : Nat) (source : γ) (walks : Nat) : List (List Char) :=
  (table.endings policy maxSteps source walks).filterMap Ending.output?

theorem ending_cases_of_mem {maxSteps walks : Nat} {source : γ} {ending : Ending State}
    (hmem : ending ∈ table.endings policy maxSteps source walks) :
    (∃ path, ending = .finished path ∧ Printed path.output) ∨ ∃ s, ending = .abandoned s := by
  obtain ⟨number, -, rfl⟩ := List.mem_map.mp hmem
  exact endingOf_cases maxSteps source number

/-- **What a sampling of amounts keeps are the texts of the walks that halt,** since they all pass the
filter. -/
theorem textsAfter_eq_completed (maxSteps : Nat) (source : γ) (walks : Nat) :
    table.textsAfter policy maxSteps source walks = completed maxSteps source walks := by
  refine List.filterMap_congr fun ending hmem => ?_
  rcases ending_cases_of_mem hmem with ⟨path, rfl, hprinted⟩ | ⟨s, rfl⟩
  · rw [Ending.kept?, if_pos hprinted.isWellFormed]
    rfl
  · rfl

theorem printed_of_mem_completed {maxSteps walks : Nat} {source : γ} {text : List Char}
    (hmem : text ∈ completed maxSteps source walks) : Printed text := by
  obtain ⟨ending, hending, houtput⟩ := List.mem_filterMap.mp hmem
  rcases ending_cases_of_mem hending with ⟨path, rfl, hprinted⟩ | ⟨s, rfl⟩
  · cases houtput
    exact hprinted
  · cases houtput

/-- More walks complete the same texts first. -/
theorem take_completed (maxSteps : Nat) (source : γ) {walks more : Nat} (hle : walks ≤ more) :
    (completed maxSteps source more).take (completed maxSteps source walks).length
      = completed maxSteps source walks :=
  (List.prefix_iff_eq_take.mp
    ((table.prefix_endings policy maxSteps source hle).filterMap _)).symm

/-- **What a sampling of amounts comes to is a matter of how many of its walks halt.** -/
theorem collect_outcome_cases {config : SampleConfig} (hfits : config.fits = true) (source : γ) :
    (config.count.toNat
        ≤ (completed config.maxSteps.toNat source config.maxAttempts.toNat).length ∧
      (table.collect policy config source).outcome
        = .ok ((completed config.maxSteps.toNat source config.maxAttempts.toNat).take
            config.count.toNat)) ∨
    ((completed config.maxSteps.toNat source config.maxAttempts.toNat).length
        < config.count.toNat ∧
      ∃ e, (table.collect policy config source).outcome = .error (.exhausted e)) := by
  obtain ⟨walks, h | h⟩ := succeeds_or_givesUp (fits_iff.mp hfits) source
  · have htexts := h.outcome
    have hlength := h.length_texts
    rw [textsAfter_eq_completed] at htexts hlength
    have htake := take_completed config.maxSteps.toNat source h.le_maxAttempts
    rw [hlength] at htake
    refine Or.inl ⟨?_, by rw [htexts, htake]⟩
    rw [← htake, List.length_take] at hlength
    omega
  · have hfew := h.length_texts
    rw [textsAfter_eq_completed, h.eq_maxAttempts] at hfew
    exact Or.inr ⟨hfew, _, h.outcome⟩

end Amount

end AmountWalk
