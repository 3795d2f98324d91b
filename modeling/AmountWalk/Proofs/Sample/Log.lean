import AmountWalk.Proofs.Sample.Collect

/-!
# What a sampling reports

A sampling passes on what each of its walks reports, and adds a report of its own when it drops the
text. So its log goes through the endings of its walks in order (`toList_log_attempts`). Reports are
only ever added: whatever was reported before stands at the front in the end
(`exists_log_collectFrom`).

A sampling that finds its texts adds one report at the end, and one that is exhausted adds none
(`log_collect_of_enoughAfter`, `log_collect_of_few`). Abandoned walks and dropped texts can be counted
in the log (`countP_isAbandonment_flatMap`, `rejectedSample_mem_reports_iff`).
-/

namespace AmountWalk

variable {σ γ : Type}

/-- The report of a text that is dropped. -/
def Ending.rejection : Ending σ → List Event
  | .finished path => if isWellFormed path.output then [] else [.rejectedSample path.output]
  | .abandoned _ => []
  | .fault _ => []

/-- Whether the event is the report of an abandoned walk. -/
def Event.isAbandonment : Event → Bool
  | .walkAbandoned .. => true
  | _ => false

namespace Tally

variable (tally : Tally)

theorem toList_log_report (events : List Event) :
    (tally.report events).log.toList = tally.log.toList ++ events := by
  simp [report]

theorem toList_log_count (ending : Ending σ) :
    (tally.count ending).log.toList = tally.log.toList ++ ending.rejection := by
  cases ending with
  | finished path => cases h : isWellFormed path.output <;> simp [count, Ending.rejection, h]
  | abandoned => simp [count, Ending.rejection]
  | fault => simp [count, Ending.rejection]

end Tally

namespace Table

variable [DecidableEq σ] [StateSet σ]

/-- All that is reported about one walk of a sampling. -/
def reports (table : Table σ) (maxSteps : Nat) (ending : Ending σ) : List Event :=
  table.endingLog maxSteps ending ++ ending.rejection

variable [ChoiceSource γ] (table : Table σ) (policy : Policy σ)

/-! ## Attempts -/

theorem toList_log_attempt (maxSteps : Nat) (now : Tally × γ) :
    (table.attempt policy maxSteps now).1.log.toList
      = now.1.log.toList
        ++ table.reports maxSteps (table.walkBounded policy maxSteps now.2).outcome := by
  rw [attempt, Tally.toList_log_count, Tally.toList_log_report, List.append_assoc]
  rfl

/-- **The log goes through the endings of the walks.** -/
theorem toList_log_attempts (maxSteps n : Nat) (now : Tally × γ) :
    (table.attempts policy maxSteps n now).1.log.toList
      = now.1.log.toList
        ++ (table.endings policy maxSteps now.2 n).flatMap (table.reports maxSteps) := by
  induction n with
  | zero => exact (List.append_nil _).symm
  | succ n ih =>
    rw [attempts_succ, toList_log_attempt, ih, snd_attempts, endings_succ, List.flatMap_append,
      List.append_assoc, List.flatMap_singleton]
    rfl

theorem toList_log_tallyAfter (maxSteps : Nat) (source : γ) (n : Nat) :
    (table.tallyAfter policy maxSteps source n).log.toList
      = (table.endings policy maxSteps source n).flatMap (table.reports maxSteps) :=
  table.toList_log_attempts policy maxSteps n (.empty, source)

/-! ## Samplings -/

/-- **Reports are only ever added.** -/
theorem exists_log_collectFrom (config : SampleConfig) (attempts : Nat) (tally : Tally)
    (source : γ) : ∃ later,
    (table.collectFrom policy config attempts tally source).log = tally.log.toList ++ later := by
  induction attempts generalizing tally source with
  | zero =>
    by_cases h : config.count.toNat ≤ tally.texts.size
    · rw [collectFrom_of_enough h]
      exact ⟨_, Array.toList_push⟩
    · rw [collectFrom_of_few (Nat.not_le.mp h)]
      exact ⟨[], (List.append_nil _).symm⟩
  | succ attempts ih =>
    by_cases h : config.count.toNat ≤ tally.texts.size
    · rw [collectFrom_of_enough h]
      exact ⟨_, Array.toList_push⟩
    · have hfew := Nat.not_le.mp h
      have hattempt := table.toList_log_attempt policy config.maxSteps.toNat (tally, source)
      cases hends : (table.walkBounded policy config.maxSteps.toNat source).outcome with
      | fault fault =>
        rw [collectFrom_of_fault hfew hends]
        exact ⟨_, hattempt⟩
      | _ =>
        rw [collectFrom_succ hfew (by rw [hends]; rfl)]
        obtain ⟨later, hlater⟩ := ih
          (table.attempt policy config.maxSteps.toNat (tally, source)).1
          (table.attempt policy config.maxSteps.toNat (tally, source)).2
        rw [hlater, hattempt, List.append_assoc]
        exact ⟨_, rfl⟩

section Collect

variable {table policy} {config : SampleConfig} {source : γ} {n : Nat}
  (hfits : config.count.toNat * 24 ≤ Nat.pow 2 63 - 1)
include hfits

theorem log_collect_of_enoughAfter (hle : n ≤ config.maxAttempts.toNat)
    (henough : table.EnoughAfter policy config source n)
    (hsafe : table.SafeFor policy config source n) :
    (table.collect policy config source).log
      = (table.endings policy config.maxSteps.toNat source n).flatMap
          (table.reports config.maxSteps.toNat)
        ++ [.samplingComplete n
            ((table.endings policy config.maxSteps.toNat source n).countP Ending.isAbandoned)
            config.count.toNat] := by
  rw [collect_eq hfits hle henough.2 hsafe,
    collectFrom_of_enough (by rw [size_texts_tallyAfter]; exact henough.1), Array.toList_push,
    toList_log_tallyAfter, attempts_tallyAfter, abandoned_tallyAfter, size_texts_tallyAfter,
    henough.length_eq]

theorem log_collect_of_few
    (hfew : ∀ walks ≤ config.maxAttempts.toNat,
      (table.textsAfter policy config.maxSteps.toNat source walks).length < config.count.toNat)
    (hsafe : table.SafeFor policy config source config.maxAttempts.toNat) :
    (table.collect policy config source).log
      = (table.endings policy config.maxSteps.toNat source config.maxAttempts.toNat).flatMap
          (table.reports config.maxSteps.toNat) := by
  rw [collect_eq hfits (Nat.le_refl _) (fun j hj => hfew j (Nat.le_of_lt hj)) hsafe, Nat.sub_self,
    collectFrom_of_few (by rw [size_texts_tallyAfter]; exact hfew _ (Nat.le_refl _)),
    toList_log_tallyAfter]

end Collect

/-! ## Counting in the log -/

omit [DecidableEq σ] in
/-- **As many walks are abandoned as are reported so.** -/
theorem countP_isAbandonment_flatMap (table : Table σ) (maxSteps : Nat) :
    ∀ endings : List (Ending σ), (endings.flatMap (table.reports maxSteps)).countP
      Event.isAbandonment = endings.countP Ending.isAbandoned
  | [] => rfl
  | ending :: endings => by
    have hone : (table.reports maxSteps ending).countP Event.isAbandonment
        = if ending.isAbandoned = true then 1 else 0 := by
      cases ending with
      | finished path =>
        cases h : isWellFormed path.output <;>
          simp [reports, endingLog, Ending.rejection, finishedEvent, Event.isAbandonment,
            Ending.isAbandoned, h]
      | abandoned s => rfl
      | fault f => rfl
    rw [List.flatMap_cons, List.countP_append, hone, countP_isAbandonment_flatMap table maxSteps,
      List.countP_cons]
    exact Nat.add_comm _ _

omit [DecidableEq σ] in
/-- A text is reported as dropped if a walk halted with it and it is not well formed. -/
theorem rejectedSample_mem_reports_iff {table : Table σ} {maxSteps : Nat} {ending : Ending σ}
    {text : List Char} : Event.rejectedSample text ∈ table.reports maxSteps ending
      ↔ ∃ path, ending = .finished path ∧ path.output = text ∧ isWellFormed text = false := by
  cases ending with
  | finished path =>
    cases h : isWellFormed path.output with
    | true =>
      simp only [reports, endingLog, Ending.rejection, finishedEvent, h, if_true]
      constructor
      · intro hmem
        simp at hmem
      · rintro ⟨other, heq, rfl, hnot⟩
        cases heq
        rw [h] at hnot
        cases hnot
    | false =>
      simp only [reports, endingLog, Ending.rejection, finishedEvent, h]
      constructor
      · intro hmem
        obtain rfl : text = path.output := by simpa using hmem
        exact ⟨path, rfl, rfl, h⟩
      · rintro ⟨other, heq, rfl, -⟩
        cases heq
        simp
  | abandoned s => simp [reports, endingLog, Ending.rejection]
  | fault f => simp [reports, endingLog, Ending.rejection]

omit [DecidableEq σ] in
/-- No walk reports the end of the sampling. -/
theorem samplingComplete_not_mem_flatMap (table : Table σ) (maxSteps : Nat)
    (endings : List (Ending σ)) (attempts abandoned collected : Nat) :
    Event.samplingComplete attempts abandoned collected
      ∉ endings.flatMap (table.reports maxSteps) := by
  intro hmem
  obtain ⟨ending, -, hreport⟩ := List.mem_flatMap.mp hmem
  cases ending with
  | finished path =>
    cases h : isWellFormed path.output <;>
      simp [reports, endingLog, Ending.rejection, finishedEvent, h] at hreport
  | abandoned s => simp [reports, endingLog, Ending.rejection] at hreport
  | fault f => simp [reports, endingLog, Ending.rejection] at hreport

end Table

end AmountWalk
